import MediaWatch.Engine.Step

/-! # Running

Steps are taken until nothing is under way or a client listener is called. How many that can be is
bounded by what is under way and by the registrations there are, since no node tells its listeners
twice unless a client moves in between.
-/

namespace MediaWatch.Engine

def registrations (e : Engine) : Nat := (e.cells.flatMap fun entry => entry.2.listeners).length

/-- How many steps a frame can take when there are so many registrations, the frames it puts on the
stack for lists included. -/
def frameWork (registrations : Nat) : Frame → Nat
  | .refresh pending => 1 + pending.length * (registrations + 2)
  | .dispatch _ _ pending _ => 1 + pending.length
  | .call _ _ _ => 0

/-- How many steps can be taken before a client moves again. -/
def work (e : Engine) : Nat :=
  (e.frames.map (frameWork e.registrations)).foldr (· + ·) 0 + e.registrations + e.cells.length + 1

/-- At most so many steps. -/
def steps : Nat → Engine → Engine
  | 0, e => e
  | n + 1, e =>
    match e.step? with
    | none => e
    | some next => steps n next

/-- Every step that can be taken without a client. -/
def settle (e : Engine) : Engine := steps e.work e

end MediaWatch.Engine
