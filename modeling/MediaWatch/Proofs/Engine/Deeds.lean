import MediaWatch.Proofs.Engine.Stepping
import Mathlib.Logic.Relation

/-! # Deeds

Whatever clients do, the listeners of a node are touched in three ways only: one is added, one is removed, or
all are cleared. Together with the start of a dispatch, a change of the environment and the moves of the
engine itself these are the deeds that an engine goes through, and what becomes of the listeners of a node is
what the deeds that touch them make of them.
-/

namespace MediaWatch

/-- What can happen to an engine next: something that a client does, or a move of the engine. -/
inductive Deed where
  | add (id : NodeId) (target : Target)
  | remove (id : NodeId) (listener : ListenerId)
  | clear (id : NodeId)
  /-- An event of a source is dispatched to everyone who listens to a node. -/
  | dispatch (id : NodeId) (source : Observable) (event : Event)
  | update (features : Media.Features)
  /-- Anything else that a client does, with the engine it ends with. -/
  | aside (after : Engine)
  /-- The client listener that is running ends, and may have failed. -/
  | finish (failing : Bool)
  /-- The engine takes a step. -/
  | advance

/-- Whether a client does something besides ending. -/
def Deed.byClient : Deed → Bool
  | .finish _ => false
  | .advance => false
  | _ => true

/-- What touches the listeners of a node. -/
inductive Edit where
  | add (entry : ListenerId × Target)
  | remove (listener : ListenerId)
  | clear

/-- The listeners after an edit: who is added comes last, and who is removed leaves the others in their order. -/
def Edit.apply (listeners : List (ListenerId × Target)) : Edit → List (ListenerId × Target)
  | .add entry => listeners ++ [entry]
  | .remove listener => listeners.filter fun entry => entry.1 != listener
  | .clear => []

namespace Engine

def perform (e : Engine) : Deed → Engine
  | .add id target => (e.register id target).2
  | .remove id listener => (e.unregister id listener).2
  | .clear id => e.clearChannel id
  | .dispatch id source event => e.pushDispatch id source event
  | .update features => e.update features
  | .aside after => after
  | .finish failing => e.finish failing
  | .advance => e.step?.getD e

/-- The deeds that can be done: the engine steps while it can, and clients act when nothing is under way or a
listener of theirs is running. What they do aside leaves all listeners and what is under way alone. -/
def Permits (e : Engine) : Deed → Prop
  | .advance => e.step?.isSome
  | .finish _ => e.running?.isSome
  | .aside after =>
    e.step? = none ∧ after.frames = e.frames ∧ ∀ id, (after.cell id).listeners = (e.cell id).listeners
  | _ => e.step? = none

/-- How a deed touches the listeners of a node. A registration gets its identity when it is added. -/
def edits (id : NodeId) (e : Engine) : Deed → List Edit
  | .add node target => if node = id then [.add (e.nextListener, target)] else []
  | .remove node listener => if node = id then [.remove listener] else []
  | .clear node => if node = id then [.clear] else []
  | _ => []

def after (e : Engine) (deeds : ℕ → Deed) : ℕ → Engine
  | 0 => e
  | n + 1 => (e.after deeds n).perform (deeds n)

/-- What is noted of so many deeds, one after the other. -/
def noted {α : Type} (note : Engine → Deed → List α) (e : Engine) (deeds : ℕ → Deed) : ℕ → List α
  | 0 => []
  | n + 1 => noted note e deeds n ++ note (e.after deeds n) (deeds n)

variable {e e' : Engine} {deed : Deed} {deeds : ℕ → Deed}

/-- Steps leave all listeners alone. -/
theorem Stepped.listeners (stepped : e.Stepped e') (id : NodeId) :
    (e'.cell id).listeners = (e.cell id).listeners := by
  cases stepped with
  | refreshed | stale | told | dispatched | called | passed => rfl
  | @reacted source o event listener pending failed rest node frames named alive due =>
    show ((e.modifyCell node fun cell => { cell with baseline := e.reading o }).cell id).listeners = _
    rw [cell_modifyCell]
    split <;> rfl

private theorem Finished.listeners {failing : Bool} (finished : e.Finished failing e') (id : NodeId) :
    (e'.cell id).listeners = (e.cell id).listeners := by
  cases finished <;> rfl

private theorem listeners_update (e : Engine) (features : Media.Features) (id : NodeId) :
    ((e.update features).cell id).listeners = (e.cell id).listeners := by
  rw [update_eq]
  exact (cell_noteValues _ _ id).1

/-- A deed does to the listeners of a node what its edits say, and nothing else. -/
theorem listeners_perform (permitted : e.Permits deed) (id : NodeId) :
    ((e.perform deed).cell id).listeners = (e.edits id deed).foldl Edit.apply (e.cell id).listeners := by
  cases deed with
  | add node target =>
    show ((e.register node target).2.cell id).listeners = _
    rw [cell_register, edits]
    split <;> rfl
  | remove node listener =>
    show ((e.unregister node listener).2.cell id).listeners = _
    rw [cell_unregister, edits]
    split <;> rfl
  | clear node =>
    show ((e.clearChannel node).cell id).listeners = _
    rw [clearChannel, cell_modifyCell, edits]
    split <;> rfl
  | dispatch node source event => rfl
  | update features => exact listeners_update e features id
  | aside later => exact permitted.2.2 id
  | finish failing => exact (finished permitted failing).listeners id
  | advance =>
    obtain ⟨next, step⟩ := Option.isSome_iff_exists.mp permitted
    show ((e.step?.getD e).cell id).listeners = _
    rw [step]
    exact (stepped step).listeners id

/-- After so many deeds the listeners of a node are what the edits among the deeds made of them. -/
theorem listeners_after {n : ℕ} (permitted : ∀ m < n, (e.after deeds m).Permits (deeds m)) (id : NodeId) :
    ((e.after deeds n).cell id).listeners = (noted (edits id) e deeds n).foldl Edit.apply (e.cell id).listeners := by
  induction n with
  | zero => rfl
  | succ n ih =>
    have before := ih fun m less => permitted m (Nat.lt_succ_of_lt less)
    have last := listeners_perform (permitted n (Nat.lt_succ_self n)) id
    rw [noted, List.foldl_append, ← before]
    exact last

/-! ## What clients do through observables -/

/-- One engine becomes another one by a deed. -/
def Does (e e' : Engine) : Prop := ∃ deed, e.Permits deed ∧ e.perform deed = e'

/-- Whether the engine can step is seen from what is under way. -/
theorem step?_congr (same : e'.frames = e.frames) (still : e.step? = none) : e'.step? = none := by
  rw [step?] at still ⊢
  rw [same]
  split at still
  · rfl
  · rfl
  · contradiction
  · contradiction
  · contradiction
  · dsimp only at still
    split at still <;> contradiction

/-- One engine becomes another one by deeds that clients can do while a listener of theirs runs, and what is under way
stays as it is. -/
structure Tended (e e' : Engine) : Prop where
  frames : e'.frames = e.frames
  deeds : e.step? = none → Relation.ReflTransGen Does e e'

namespace Tended

variable {e'' : Engine}

theorem refl (e : Engine) : Tended e e := ⟨rfl, fun _ => .refl⟩

theorem trans (left : Tended e e') (right : Tended e' e'') : Tended e e'' where
  frames := right.frames.trans left.frames
  deeds still := (left.deeds still).trans (right.deeds (step?_congr left.frames still))

theorem register (e : Engine) (id : NodeId) (target : Target) : Tended e (e.register id target).2 where
  frames := rfl
  deeds still := .single ⟨.add id target, still, rfl⟩

theorem unregister (e : Engine) (id : NodeId) (listener : ListenerId) : Tended e (e.unregister id listener).2 where
  frames := rfl
  deeds still := .single ⟨.remove id listener, still, rfl⟩

theorem aside (frames : e'.frames = e.frames) (listeners : ∀ id, (e'.cell id).listeners = (e.cell id).listeners) :
    Tended e e' where
  frames := frames
  deeds still := .single ⟨.aside e', ⟨still, frames, listeners⟩, rfl⟩

theorem attach (e : Engine) (id : NodeId) (reading : Reading) (held : List ListenerId) :
    Tended e (e.attach id reading held) := aside rfl (listeners_attach e id reading held)

theorem detach (e : Engine) (id : NodeId) : Tended e (e.detach id) := aside rfl (listeners_detach e id)

theorem newListener (e : Engine) : Tended e e.newListener.2 := aside rfl fun _ => rfl

theorem leave (e : Engine) (id : NodeId) (held : List ListenerId) :
    Tended e (held.foldl (fun e own => (e.unregister id own).2) e) := by
  induction held generalizing e with
  | nil => exact .refl e
  | cons own held ih => exact (unregister e id own).trans (ih _)

mutual

theorem subscribeCondition (target : Target) (e : Engine) (c : Condition) :
    Tended e (e.subscribeCondition target c).2 := by
  cases c with
  | always => exact newListener e
  | never => exact newListener e
  | leaf id l inverted =>
    rw [Engine.subscribeCondition]
    dsimp only
    split
    · exact ((register e id target).trans (register _ l.id _)).trans (attach ..)
    · exact register e id target
  | group id junction cs =>
    rw [Engine.subscribeCondition]
    dsimp only
    split
    · exact ((register e id target).trans (subscribeAll _ _ cs)).trans (attach ..)
    · exact register e id target

theorem subscribeAll (target : Target) (e : Engine) (cs : List Condition) :
    Tended e (e.subscribeAll target cs).2 := by
  cases cs with
  | nil => exact .refl e
  | cons c cs => exact (subscribeCondition target e c).trans (subscribeAll target _ cs)

end

mutual

theorem unsubscribeCondition (listener : ListenerId) (e : Engine) (c : Condition) :
    Tended e (e.unsubscribeCondition listener c).2 := by
  cases c with
  | always => exact .refl e
  | never => exact .refl e
  | leaf id l inverted =>
    rw [Engine.unsubscribeCondition]
    dsimp only
    split
    · exact ((unregister e id listener).trans (detach ..)).trans (leave ..)
    · exact unregister e id listener
  | group id junction cs =>
    rw [Engine.unsubscribeCondition]
    dsimp only
    split
    · exact ((unregister e id listener).trans (detach ..)).trans (unsubscribeAll _ _ cs)
    · exact unregister e id listener

theorem unsubscribeAll (listeners : List ListenerId) (e : Engine) (cs : List Condition) :
    Tended e (e.unsubscribeAll listeners cs) := by
  cases cs with
  | nil => exact .refl e
  | cons c cs =>
    cases listeners with
    | nil => exact .refl e
    | cons listener rest => exact (unsubscribeCondition listener e c).trans (unsubscribeAll rest _ cs)

end

/-- Listening to an observable is a matter of adding listeners, its own and those of its parts. -/
theorem subscribe (e : Engine) (o : Observable) (target : Target) : Tended e (e.subscribe o target).2 := by
  cases o with
  | list l => exact register e l.id target
  | channel id => exact register e id target
  | condition c => exact subscribeCondition target e c
  | rules id cs =>
    rw [Engine.subscribe]
    dsimp only
    split
    · exact ((register e id target).trans (subscribeAll _ _ cs)).trans (attach ..)
    · exact register e id target

/-- Leaving an observable is a matter of removing listeners. -/
theorem unsubscribe (e : Engine) (o : Observable) (listener : ListenerId) :
    Tended e (e.unsubscribe o listener).2 := by
  cases o with
  | list l => exact unregister e l.id listener
  | channel id => exact unregister e id listener
  | condition c => exact unsubscribeCondition listener e c
  | rules id cs =>
    rw [Engine.unsubscribe]
    dsimp only
    split
    · exact ((unregister e id listener).trans (detach ..)).trans (unsubscribeAll _ _ cs)
    · exact unregister e id listener

end Tended

end Engine

end MediaWatch
