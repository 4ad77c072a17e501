import MediaWatch.Engine.Run

/-! # Notices

Clients that only listen leave the engine alone while they are told something, so that all they are
told can be read off at once.
-/

namespace MediaWatch

/-- What a client listener was told, and by whom. -/
structure Notice where
  listener : ListenerId
  source : Observable
  event : Event

/-- The new reading, for a listener of something that has one. -/
def Notice.reading? (n : Notice) : Option Reading :=
  match n.event with
  | .changed reading => some reading
  | .signal _ => none

namespace Engine

/-- At most so many moves of the engine and of clients that only listen, with what the clients are
told. -/
def attend : Nat → Engine → List Notice × Engine
  | 0, e => ([], e)
  | n + 1, e =>
    match e.running? with
    | some (listener, source, event) =>
      let (notices, e) := attend n (e.finish false)
      (⟨listener, source, event⟩ :: notices, e)
    | none =>
      match e.step? with
      | some next => attend n next
      | none => ([], e)

/-- Everything that clients are told in the course of what is under way, if all they do is listen.
Every call of a listener comes from a step of its own, which bounds the moves by twice the steps. -/
def notices (e : Engine) : List Notice × Engine := attend (2 * e.work) e

end Engine

end MediaWatch
