import MediaWatch.Shortcut.Registry

/-! # Shortcut configurations

A configuration describes a registry: the device, the breakpoints and environment shortcuts on top of
the usual ones, and whether densities are kept from bots.
-/

namespace MediaWatch

/-- A declaration of shortcuts. -/
structure Config where
  /-- Breakpoints to add, under their names as written. -/
  breakpoints : Fields Breakpoint := []
  /-- Usual breakpoints to drop before the others are added. -/
  removed : List Text := []
  /-- Environment shortcuts to add, under their names as written. -/
  environment : Fields Shortcut := []
  /-- The user agent that the device is read off. -/
  userAgent : Option Text := none
  /-- Whether touch input is available. -/
  touch : Option Bool := none
  /-- Whether densities above one never hold for bots. -/
  ignoreBots : Bool := false
deriving DecidableEq, Repr

namespace Config

def device (c : Config) : Device :=
  let device := (c.userAgent.map Device.ofUserAgent).getD {}
  { device with touch := c.touch.getD device.touch }

/-- The breakpoints with one declared range more. A reversed range is refused before the name is
looked at. -/
def addBreakpoint (b : Breakpoints) (entry : Text × Breakpoint) : Except Fault Breakpoints :=
  if entry.2.max < entry.2.min then
    .error (.reversedRange entry.1 entry.2.min.toNat entry.2.max.toNat)
  else b.add entry.1 entry.2

/-- The registry that a configuration declares. -/
def build (c : Config) : Except Fault Registry := do
  let registry := Registry.ofDevice c.device
  let kept := c.removed.foldl Breakpoints.remove registry.breakpoints
  let breakpoints ← c.breakpoints.foldlM addBreakpoint kept
  .ok { registry with
    breakpoints
    environment := c.environment.foldl (fun e entry => e.add entry.1 entry.2) registry.environment
    density := { registry.density with ignoreBots := c.ignoreBots } }

end Config

end MediaWatch
