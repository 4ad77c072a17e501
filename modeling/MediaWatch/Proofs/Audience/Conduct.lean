import MediaWatch.Proofs.Audience.Rest
import MediaWatch.Proofs.Engine.Deeds

/-! # What an audience does to its engine

Every move of an audience comes down to deeds on the engine, so that whatever is shown of all that an engine
can go through holds in every history of an audience.
-/

namespace MediaWatch.Audience

variable {a a' b : Audience} {m : Move} {ms : List Move} {sort : Audience → Move → Prop}

/-- A client that leaves the environment alone adds and removes listeners at most. -/
theorem Acted.tended (acted : a.Acted m a') (client : m.isEngine = false) (still : a.Still m) :
    a.engine.Tended a'.engine := by
  cases acted with
  | gained making => exact .aside making.frames making.listeners
  | uncached | configured | kept usable => exact .aside rfl fun _ => rfl
  | @listened o usable => exact .subscribe a.engine o .client
  | @left o source listener usable handle => exact .unsubscribe a.engine o listener
  | set => exact absurd rfl (still _)
  | ended | stepped => contradiction

/-- A move comes down to deeds. -/
theorem Orderly.does (orderly : a.Orderly) (allowed : a.Allows m) :
    Relation.ReflTransGen Engine.Does a.engine (a.act m).engine := by
  have acted := orderly.acted allowed
  cases m with
  | advance =>
    refine .single ⟨.advance, allowed, ?_⟩
    obtain ⟨e', step⟩ := Option.isSome_iff_exists.mp allowed
    show a.engine.step?.getD a.engine = a.advance.engine
    rw [Audience.advance, step]
    rfl
  | finish failing => exact .single ⟨.finish failing, allowed, rfl⟩
  | update features => exact .single ⟨.update features, allowed.1, rfl⟩
  | _ => exact (acted.tended rfl fun _ same => by cases same).deeds allowed.1

/-- A history comes down to deeds. -/
theorem Run.does (run : Run sort a ms b) (orderly : a.Orderly) :
    Relation.ReflTransGen Engine.Does a.engine b.engine := by
  induction run with
  | nil => exact .refl
  | cons allowed sorted rest ih => exact (orderly.does allowed).trans (ih (orderly.act allowed))

end MediaWatch.Audience
