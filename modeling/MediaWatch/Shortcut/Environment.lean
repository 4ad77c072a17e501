import MediaWatch.Device
import MediaWatch.Fields
import MediaWatch.Shortcut.Basic
import MediaWatch.Text.LowerCase

/-! # The environment

Named shortcuts for the device, the browser and whatever else a program adds. Names are the same in
any case.
-/

namespace MediaWatch

/-- Shortcuts under their lower-case names. -/
structure Environment where
  table : Fields Shortcut

namespace Environment

/-- The environment with a shortcut under a name, in place of any that was there. -/
def add (e : Environment) (name : Text) (shortcut : Shortcut) : Environment :=
  ⟨e.table.insert name.lower shortcut⟩

def remove (e : Environment) (name : Text) : Environment := ⟨e.table.erase name.lower⟩

/-- The shortcut of a name, in any case. -/
def get? (e : Environment) (name : Text) : Option Shortcut := e.table.find? name.lower

def ofDevice (d : Device) : Environment :=
  ⟨Fields.ofEntries
    [("all".toList, .constant true), ("none".toList, .constant false),
     ("bot".toList, .constant d.bot), ("mobile".toList, .constant d.mobile),
     ("desktop".toList, .constant !d.mobile), ("android".toList, .constant d.android),
     ("ios".toList, .constant d.ios), ("touch".toList, .constant d.touch),
     ("blink".toList, .constant d.blink), ("edge".toList, .constant d.edge),
     ("gecko".toList, .constant d.gecko), ("safari".toList, .constant d.safari),
     ("webkit".toList, .constant d.webkit), ("ie".toList, .constant d.ie),
     ("portrait".toList, .descriptor "(orientation: portrait)".toList),
     ("landscape".toList, .descriptor "(orientation: landscape)".toList)]⟩

theorem sorted_ofDevice (d : Device) : (ofDevice d).table.Sorted := by
  rw [ofDevice]
  dsimp only
  exact Fields.sorted_ofEntries _

/-- All shortcuts in the order of their names. -/
def entries (e : Environment) : List (Text × Shortcut) := e.table

end Environment

end MediaWatch
