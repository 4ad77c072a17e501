import MediaWatch.Proofs.Audience.Basic
import MediaWatch.Proofs.Rule.Pairing
import MediaWatch.Proofs.Rule.Resolution

/-! # What the cache recalls

A query that was asked for is answered with the same instance until the cache is cleared. Only asking and clearing
touch the cache, and asking adds a condition under its own text alone. So whatever else happens meanwhile, to the
registry, to the environment or to other queries, the instance stays what it was when the query was first asked for:
what would have been compiled with the registry of that moment.
-/

namespace MediaWatch

namespace Condition

/-- Every instance is the same as itself. -/
theorem same_self (c : Condition) : c.same c = true := by
  cases c with
  | always => rfl
  | never => rfl
  | leaf id l inverted => exact beq_self_eq_true id
  | group id j cs => cases j <;> exact beq_self_eq_true id

end Condition

/-- A query that is not known yet is compiled. -/
theorem Watcher.query_of_unknown {w : Watcher} {query : Text} (unknown : w.cache.find? query = none) :
    (w.query query).1 = (w.compile query).1 := by
  rw [Watcher.query, unknown]

namespace Audience

variable {sort : Audience → Move → Prop} {a b : Audience} {m : Move} {ms : List Move} {query : Text}

/-- Only asking for queries and clearing change the cache. -/
theorem cache_act (a : Audience) (m : Move) :
    (a.act m).watcher.cache =
      match m with
      | .query query => (a.watcher.query query).2.cache
      | .clearCache => []
      | _ => a.watcher.cache := by
  cases m with
  | advance =>
    rw [act, advance]
    split <;> rfl
  | _ => rfl

/-- What was compiled is recalled after every move that does not clear the cache. -/
theorem recalls_act (a : Audience) (kept : m ≠ .clearCache) : (a.act m).watcher.Recalls a.watcher := by
  intro query c known
  rw [cache_act]
  cases m with
  | query other => exact (a.watcher.recalls_query other).1 query c known
  | clearCache => contradiction
  | _ => exact known

/-- What is not asked for stays unknown. -/
theorem unknown_act (unknown : a.watcher.cache.find? query = none) (other : m ≠ .query query) :
    (a.act m).watcher.cache.find? query = none := by
  rw [cache_act]
  cases m with
  | query asked =>
    have distinct : asked ≠ query := fun same => other (congrArg Move.query same)
    dsimp only
    rw [Watcher.query]
    split
    · exact unknown
    · exact (Fields.find?_insert ..).trans ((if_neg distinct).trans unknown)
  | clearCache => rfl
  | _ => exact unknown

namespace Run

/-- A history can be cut between any two of its moves. -/
theorem split {ns : List Move} (run : Run sort a (ms ++ ns) b) : ∃ c, Run sort a ms c ∧ Run sort c ns b := by
  induction ms generalizing a with
  | nil => exact ⟨a, .nil a, run⟩
  | cons m ms ih =>
    cases run with
    | cons allowed sorted rest =>
      obtain ⟨c, front, back⟩ := ih rest
      exact ⟨c, .cons allowed sorted front, back⟩

/-- What was compiled is recalled until the cache is cleared. -/
theorem recalls (run : Run sort a ms b) (kept : .clearCache ∉ ms) : b.watcher.Recalls a.watcher := by
  induction run with
  | nil a => exact fun _ _ known => known
  | cons _ _ _ ih =>
    obtain ⟨first, later⟩ := List.ne_and_not_mem_of_not_mem_cons kept
    exact (ih later).trans (recalls_act _ first.symm)

/-- What nobody asks for stays unknown. -/
theorem unknown (run : Run sort a ms b) (unasked : .query query ∉ ms) (first : a.watcher.cache.find? query = none) :
    b.watcher.cache.find? query = none := by
  induction run with
  | nil a => exact first
  | cons _ _ _ ih =>
    obtain ⟨other, later⟩ := List.ne_and_not_mem_of_not_mem_cons unasked
    exact ih later (unknown_act first other.symm)

/-- After a query was asked for the first time since the cache was cleared, it is answered with the same instance until
the cache is cleared again, and nothing is compiled for it. In every environment the instance comes to what any compiler
with the registry of the first time makes of the query. -/
theorem query_recalled {features : Media.Features} {registry : Registry} {past recent later : List Move}
    (run : Run Free (start features registry) (past ++ recent) a)
    (cleared : past = [] ∨ past.getLast? = some .clearCache)
    (first : .query query ∉ recent) (onward : Run Free (a.act (.query query)) later b) (kept : .clearCache ∉ later) :
    b.watcher.query query = ((a.watcher.query query).1, b.watcher) ∧
      (b.watcher.query query).1.same (a.watcher.query query).1 ∧
      ∀ e : Engine, e.connected = true → ∀ v : Watcher, v.registry = a.watcher.registry →
        (b.watcher.query query).1.holds e.view = (v.compile query).1.holds e.view := by
  have unknown : a.watcher.cache.find? query = none := by
    obtain ⟨between, front, back⟩ := run.split
    refine back.unknown first ?_
    rcases cleared with rfl | last
    · cases front
      rfl
    · obtain ⟨earlier, rfl⟩ := List.getLast?_eq_some_iff.mp last
      obtain ⟨full, -, clearing⟩ := front.split
      cases clearing with
      | cons _ _ rest =>
        cases rest
        rfl
  have known : b.watcher.cache.find? query = some (a.watcher.query query).1 :=
    onward.recalls kept query _ (a.watcher.recalls_query query).2
  have again := Watcher.query_of_known known
  rw [again]
  refine ⟨rfl, Condition.same_self _, fun e connected v registered => ?_⟩
  rw [Watcher.query_of_unknown unknown, Engine.view_of_connected connected]
  show (Condition.compile a.watcher.registry _ query).1.holds _ = (Condition.compile v.registry _ query).1.holds _
  rw [registered]
  exact Watcher.holds_compile_renumbered e.features _ _ _ query

end Run

/-! ## A shortcut that is known for a while -/

def wideRegistry : Registry :=
  .use .standard (.exactly "wide".toList "wide".toList (.descriptor "(min-width: 600px)".toList))

/-- The shortcut is asked for before it is known, which is forgotten. -/
def wideEarly : List Move := [.query "@wide".toList, .clearCache]

/-- It gets known, and is asked for in other words only. -/
def wideNow : List Move := [.configure wideRegistry, .compile "@wide".toList, .query "not @wide".toList]

/-- It is given up again, another query is asked for, the viewport gets smaller, and somebody compiles the query. -/
def wideLate : List Move :=
  [.configure .standard, .query "@Wide".toList, .update (.ofSize 700 400), .advance, .compile "@wide".toList]

def wideKnown : Audience := (wideEarly ++ wideNow).foldl act (start {} .standard)

/-- Somebody has asked for it, and it is no longer known. -/
def wideGone : Audience := wideLate.foldl act (wideKnown.act (.query "@wide".toList))

private theorem wide_reached :
    Run Free (start {} .standard) (wideEarly ++ wideNow) wideKnown ∧
      Run Free (wideKnown.act (.query "@wide".toList)) wideLate wideGone :=
  ⟨.of_plays (by decide +kernel) fun _ _ _ => trivial, .of_plays (by decide +kernel) fun _ _ _ => trivial⟩

/-- The instance still watches for wide viewports when nobody knows the shortcut any more, and a new one does not. -/
theorem Run.query_recalled_wide :
    let wide : Engine := { features := {} }
    (wideGone.watcher.query "@wide".toList).1.same (wideKnown.watcher.query "@wide".toList).1 ∧
      (wideGone.watcher.query "@wide".toList).1.holds wide.view = true ∧
      (wideGone.watcher.compile "@wide".toList).1.holds wide.view = false := by
  intro wide
  have compiled : (wideKnown.watcher.compile "@wide".toList).1.holds wide.view = true := by decide +kernel
  have anew : (wideGone.watcher.compile "@wide".toList).1.holds wide.view = false := by decide +kernel
  obtain ⟨before, after⟩ := wide_reached
  have last : wideEarly.getLast? = some .clearCache := rfl
  have unasked : .query "@wide".toList ∉ wideNow := by
    simp [wideNow]
  have kept : .clearCache ∉ wideLate := by
    simp [wideLate]
  obtain ⟨-, same, value⟩ := Run.query_recalled before (.inr last) unasked after kept
  exact ⟨same, (value wide rfl _ rfl).trans compiled, anew⟩

end Audience

end MediaWatch
