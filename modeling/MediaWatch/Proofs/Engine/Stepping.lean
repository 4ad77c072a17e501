import MediaWatch.Proofs.Engine.Cells
import MediaWatch.Proofs.Engine.Nodes

/-! # What a step can do

The seven ways in which the engine can move by itself, each with all that it changes. A change of the
environment notes values and puts one frame on the stack. Everything that is said of runs goes
through these cases.
-/

namespace MediaWatch.Engine

/-- The listeners of an observable know of a reading that it does not have any more. -/
def due (e : Engine) (o : Observable) : Bool :=
  match o.id? with
  | none => false
  | some id => e.reading o != (e.cell id).baseline

theorem due_of_id {e : Engine} {o : Observable} {id : NodeId} (named : o.id? = some id) :
    e.due o ↔ e.reading o ≠ (e.cell id).baseline := by
  simp [due, named]

/-- The steps of the engine. -/
inductive Stepped (e : Engine) : Engine → Prop
  /-- All changed lists were told of. -/
  | refreshed {rest : List Frame} (frames : e.frames = .refresh [] :: rest) : Stepped e { e with frames := rest }
  /-- A list has another value by now, and was told of it already. -/
  | stale {l : MediaList} {now : Bool} {pending : List (MediaList × Bool)} {rest : List Frame}
      (frames : e.frames = .refresh ((l, now) :: pending) :: rest) (other : e.lastValue l ≠ now) :
      Stepped e { e with frames := .refresh pending :: rest }
  /-- A list tells its listeners. -/
  | told {l : MediaList} {now : Bool} {pending : List (MediaList × Bool)} {rest : List Frame}
      (frames : e.frames = .refresh ((l, now) :: pending) :: rest) (same : e.lastValue l = now) :
      Stepped e { e with
        frames := .dispatch (.list l) (.changed (.truth now)) (e.cell l.id).listeners 0 ::
          .refresh pending :: rest }
  /-- All listeners were given an event. -/
  | dispatched {source : Observable} {event : Event} {failed : Nat} {rest : List Frame}
      (frames : e.frames = .dispatch source event [] failed :: rest) :
      Stepped e { e with frames := rest, failures := failed }
  /-- A client listener is called. -/
  | called {source : Observable} {event : Event} {listener : ListenerId} {pending : List (ListenerId × Target)}
      {failed : Nat} {rest : List Frame}
      (frames : e.frames = .dispatch source event ((listener, .client) :: pending) failed :: rest) :
      Stepped e { e with frames := .call listener source event :: .dispatch source event pending failed :: rest }
  /-- An observable is not there any more, or its reading is not new. -/
  | passed {source o : Observable} {event : Event} {listener : ListenerId} {pending : List (ListenerId × Target)}
      {failed : Nat} {rest : List Frame}
      (frames : e.frames = .dispatch source event ((listener, .relay o) :: pending) failed :: rest)
      (idle : o.id?.any e.alive = false ∨ e.due o = false) :
      Stepped e { e with frames := .dispatch source event pending failed :: rest }
  /-- An observable has a new reading, and tells its listeners. -/
  | reacted {source o : Observable} {event : Event} {listener : ListenerId} {pending : List (ListenerId × Target)}
      {failed : Nat} {rest : List Frame} {id : NodeId}
      (frames : e.frames = .dispatch source event ((listener, .relay o) :: pending) failed :: rest)
      (named : o.id? = some id) (alive : e.alive id) (due : e.due o) :
      Stepped e { e.modifyCell id (fun cell => { cell with baseline := e.reading o }) with
        frames := .dispatch o (.changed (e.reading o)) (e.cell id).listeners 0 ::
          .dispatch source event pending failed :: rest }

/-- A step is one of these. -/
theorem stepped {e e' : Engine} (step : e.step? = some e') : Stepped e e' := by
  rw [step?] at step
  split at step
  · contradiction
  · contradiction
  · next rest frames =>
    obtain rfl := Option.some.inj step
    exact .refreshed frames
  · next l now pending rest frames =>
    obtain rfl := Option.some.inj step
    by_cases same : e.lastValue l = now
    · have computed : ({ e with frames := .refresh pending :: rest } : Engine).tell l now =
          { e with frames := .dispatch (.list l) (.changed (.truth now)) (e.cell l.id).listeners 0 ::
            .refresh pending :: rest } := if_pos same
      rw [computed]
      exact .told frames same
    · have computed : ({ e with frames := .refresh pending :: rest } : Engine).tell l now =
          { e with frames := .refresh pending :: rest } := if_neg same
      rw [computed]
      exact .stale frames same
  · next source event failed rest frames =>
    obtain rfl := Option.some.inj step
    exact .dispatched frames
  · next source event listener target pending failed rest frames =>
    cases target with
    | client =>
      obtain rfl := Option.some.inj step
      exact .called frames
    | relay o =>
      obtain rfl := Option.some.inj step
      have roots : ({ e with frames := .dispatch source event pending failed :: rest } : Engine).roots = e.roots := by
        simp only [roots, frames, List.flatMap_cons, Frame.owned]
      have alive : ({ e with frames := .dispatch source event pending failed :: rest } : Engine).alive = e.alive := by
        funext id
        rw [Engine.alive, roots]
        rfl
      rw [relayTo, alive]
      split
      · next living =>
        obtain ⟨id, named, living⟩ := (Option.any_eq_true ..).mp living
        simp only [react, named]
        split
        · next same =>
          have fresh : e.due o = false := by
            rw [← Bool.not_eq_true, due_of_id named]
            exact not_not_intro same
          exact .passed frames (.inr fresh)
        · next other =>
          rw [pushDispatch, cell_modifyCell, if_pos rfl]
          exact .reacted frames named living ((due_of_id named).mpr other)
      · next dead => exact .passed frames (.inl (Bool.eq_false_iff.mpr dead))

/-- While something is under way, the engine can step, or a client listener is running. -/
theorem step_or_running {e : Engine} (busy : e.frames ≠ []) : e.step?.isSome ∨ e.running?.isSome := by
  match frames : e.frames with
  | [] => exact absurd frames busy
  | .call listener source event :: rest => exact .inr (by simp [running?, frames])
  | .refresh [] :: rest => exact .inl (by simp [step?, frames])
  | .refresh (change :: pending) :: rest => exact .inl (by simp [step?, frames])
  | .dispatch source event [] failed :: rest => exact .inl (by simp [step?, frames])
  | .dispatch source event ((listener, .client) :: pending) failed :: rest => exact .inl (by simp [step?, frames])
  | .dispatch source event ((listener, .relay o) :: pending) failed :: rest => exact .inl (by simp [step?, frames])

theorem frames_of_running {e : Engine} {h : ListenerId} {source : Observable} {event : Event}
    (running : e.running? = some (h, source, event)) : ∃ rest, e.frames = .call h source event :: rest := by
  rw [running?] at running
  split at running
  · next rest frames =>
    obtain ⟨rfl, rfl, rfl⟩ : _ ∧ _ ∧ _ := by simpa using running
    exact ⟨_, frames⟩
  · contradiction

/-- The ends of a client listener: its failure counts in the dispatch that called it. -/
inductive Finished (e : Engine) (failing : Bool) : Engine → Prop
  | returned {listener : ListenerId} {source source' : Observable} {event event' : Event}
      {pending : List (ListenerId × Target)} {failed : Nat} {rest : List Frame}
      (frames : e.frames = .call listener source event :: .dispatch source' event' pending failed :: rest) :
      Finished e failing { e with
        frames := .dispatch source' event' pending (if failing then failed + 1 else failed) :: rest }
  | ended {listener : ListenerId} {source : Observable} {event : Event} {rest : List Frame}
      (frames : e.frames = .call listener source event :: rest) : Finished e failing { e with frames := rest }

theorem finished {e : Engine} (running : e.running?.isSome) (failing : Bool) :
    Finished e failing (e.finish failing) := by
  rw [finish]
  split
  · next frames => exact .returned frames
  · next frames => exact .ended frames
  · next calls =>
    rw [running?] at running
    split at running
    · next frames => exact absurd frames (calls _ _ _ _)
    · contradiction

theorem Stepped.owned {e e' : Engine} (stepped : e.Stepped e') : e'.owned = e.owned := by
  cases stepped <;> rfl

theorem Finished.owned {e e' : Engine} {failing : Bool} (finished : e.Finished failing e') : e'.owned = e.owned := by
  cases finished <;> rfl

def noteValues (e : Engine) (changes : List (MediaList × Bool)) : Engine :=
  changes.foldl (fun e change => e.noteValue change.1 change.2) e

theorem update_eq (e : Engine) (features : Media.Features) :
    e.update features = (({ e with features } : Engine).noteValues ({ e with features } : Engine).changedLists).push
      (.refresh ({ e with features } : Engine).changedLists) := rfl

theorem noteValues_stage (e : Engine) (changes : List (MediaList × Bool)) :
    SameStage e (e.noteValues changes) ∧ (e.noteValues changes).nextListener = e.nextListener := by
  induction changes generalizing e with
  | nil => exact ⟨.refl e, rfl⟩
  | cons change changes ih =>
    obtain ⟨stage, issued⟩ := ih (e.noteValue change.1 change.2)
    exact ⟨(SameStage.modifyCell ..).trans stage, issued⟩

/-- Values are noted in the cells of the lists that changed, and registrations stay what they are. -/
theorem cell_noteValues (e : Engine) (changes : List (MediaList × Bool)) (i : NodeId) :
    ((e.noteValues changes).cell i).listeners = (e.cell i).listeners ∧
      ((e.noteValues changes).cell i).held = (e.cell i).held ∧
      ((∀ change ∈ changes, change.1.id ≠ i) → ((e.noteValues changes).cell i).baseline = (e.cell i).baseline) ∧
      ∀ value, (∃ change ∈ changes, change.1.id = i) → (∀ change ∈ changes, change.1.id = i → change.2 = value) →
        ((e.noteValues changes).cell i).baseline = .truth value := by
  induction changes generalizing e with
  | nil => simp [noteValues]
  | cons change changes ih =>
    obtain ⟨listeners, held, elsewhere, here⟩ := ih (e.noteValue change.1 change.2)
    have first : (e.noteValue change.1 change.2).cell i =
        if change.1.id = i then { e.cell i with baseline := .truth change.2 } else e.cell i :=
      cell_modifyCell ..
    refine ⟨?_, ?_, ?_, ?_⟩
    · apply listeners.trans
      rw [first]
      split <;> rfl
    · apply held.trans
      rw [first]
      split <;> rfl
    · intro others
      apply (elsewhere fun other mem => others other (List.mem_cons_of_mem _ mem)).trans
      rw [first, if_neg (others change List.mem_cons_self)]
    · intro value changed same
      by_cases later : ∃ other ∈ changes, other.1.id = i
      · exact here value later fun other mem => same other (List.mem_cons_of_mem _ mem)
      · have others : ∀ other ∈ changes, other.1.id ≠ i := fun other mem hit => later ⟨other, mem, hit⟩
        apply (elsewhere others).trans
        have hit : change.1.id = i := by
          obtain ⟨other, mem, hit⟩ := changed
          rcases List.mem_cons.mp mem with rfl | mem
          · exact hit
          · exact absurd hit (others other mem)
        rw [first, if_pos hit, same change List.mem_cons_self hit]

theorem mem_changedLists {e : Engine} {change : MediaList × Bool} :
    change ∈ e.changedLists ↔ (change.1 ∈ e.lists ∧ e.alive change.1.id) ∧
      change.2 = e.features.satisfy change.1.descriptor ∧ change.2 ≠ e.lastValue change.1 := by
  obtain ⟨l, value⟩ := change
  simp only [changedLists, liveLists, List.mem_filter, List.mem_map, bne_iff_ne, Prod.mk.injEq]
  constructor
  · rintro ⟨⟨m, live, rfl, rfl⟩, other⟩
    exact ⟨live, rfl, other⟩
  · rintro ⟨live, rfl, other⟩
    exact ⟨⟨l, live, rfl, rfl⟩, other⟩

theorem changedLists_once {e : Engine} (once : e.lists.Nodup) : (e.changedLists.map Prod.fst).Nodup := by
  have sublist : (e.changedLists.map Prod.fst).Sublist e.lists := by
    apply (List.filter_sublist.map Prod.fst).trans
    rw [List.map_map]
    exact (List.map_id _).symm ▸ List.filter_sublist
  exact once.sublist sublist

end MediaWatch.Engine
