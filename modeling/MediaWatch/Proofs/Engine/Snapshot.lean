import MediaWatch.Proofs.Engine.Deeds
import MediaWatch.Proofs.Engine.Unrolling
import Mathlib.Data.Prod.Lex
import Mathlib.Data.Set.Finite.Lattice
import Mathlib.Order.OrderIsoNat
import Mathlib.Tactic.IntervalCases

/-! # One call of a dispatch

A dispatch calls whoever listened when it started, and meanwhile the listeners may do anything: listen, leave,
clear the node, change the environment, dispatch again, fail. Of all that happens the stack tells apart what
the dispatch does itself: its own frame is then the latest one, over as many frames as there were before it.
So its calls are read off there, and so are the failures that it counts, while the listeners of the node
follow the edits of whoever makes them.
-/

namespace MediaWatch

/-- A call of a listener in the course of a dispatch: who is called, and what event of what source it is given. -/
structure Invocation where
  entry : ListenerId × Target
  source : Observable
  event : Event

def Frame.isDispatch : Frame → Bool
  | .dispatch _ _ _ _ => true
  | _ => false

namespace Engine

/-- The call that the dispatch over so many frames makes with a deed, if it makes one. -/
def invocations (depth : ℕ) (e : Engine) : Deed → List Invocation
  | .advance =>
    match e.frames with
    | .dispatch source event (entry :: _) _ :: rest => if rest.length = depth then [⟨entry, source, event⟩] else []
    | _ => []
  | _ => []

/-- The listener that fails with a deed, if it was called by the dispatch over so many frames. -/
def panics (depth : ℕ) (e : Engine) : Deed → List ListenerId
  | .finish true =>
    match e.frames with
    | .call listener _ _ :: rest => if rest.length = depth + 1 then [listener] else []
    | _ => []
  | _ => []

@[simp]
theorem panics_advance (depth : ℕ) (e : Engine) : e.panics depth .advance = [] := rfl

def dispatches (e : Engine) : ℕ := e.frames.countP Frame.isDispatch

/-- With a deed a client does something, or one more dispatch is under way. -/
def Stirs (e : Engine) (deed : Deed) : Prop := deed.byClient ∨ e.dispatches < (e.perform deed).dispatches

/-- One call of a dispatch of an event to a node, from its start until it has returned after so many deeds. -/
structure Served (e : Engine) (id : NodeId) (source : Observable) (event : Event) (deeds : ℕ → Deed)
    (n : ℕ) : Prop where
  /-- Until then the dispatch was under way. -/
  underway : ∀ m < n, e.frames.length < ((e.pushDispatch id source event).after deeds m).frames.length
  /-- So long the engine could step, or the client listener that was running could end. -/
  unstuck : ∀ m < n, ((e.pushDispatch id source event).after deeds m).step?.isSome ∨
    ((e.pushDispatch id source event).after deeds m).running?.isSome
  /-- By then it is off the stack, and nothing else has changed there. -/
  returned : ((e.pushDispatch id source event).after deeds n).frames = e.frames
  /-- It called exactly those who listened when it started, each once and in their order. -/
  invoked : noted (invocations e.frames.length) (e.pushDispatch id source event) deeds n =
    (e.cell id).listeners.map fun entry => ⟨entry, source, event⟩
  /-- A client listener that it calls is running then, with the event. -/
  running : ∀ m, ∀ i ∈ ((e.pushDispatch id source event).after deeds m).invocations e.frames.length (deeds m),
    i.entry.2 = .client →
      ((e.pushDispatch id source event).after deeds (m + 1)).running? = some (i.entry.1, i.source, i.event)
  /-- Those who failed are among them. -/
  among : (noted (panics e.frames.length) (e.pushDispatch id source event) deeds n).Sublist
    ((e.cell id).listeners.map Prod.fst)
  /-- It comes back with the number of those who failed. -/
  failures : ((e.pushDispatch id source event).after deeds n).failures =
    (noted (panics e.frames.length) (e.pushDispatch id source event) deeds n).length
  /-- The listeners are what the edits made of them since it started. -/
  listeners : (((e.pushDispatch id source event).after deeds n).cell id).listeners =
    (noted (edits id) (e.pushDispatch id source event) deeds n).foldl Edit.apply (e.cell id).listeners

variable {e : Engine} {deed : Deed} {id : NodeId} {source : Observable} {event : Event} {base : List Frame}
  {waiting : List (ListenerId × Target)} {called failed : List ListenerId}

/-- A client listener that a dispatch calls is running then, with the event. -/
theorem running_of_invoked {depth : ℕ} {i : Invocation} (invoked : i ∈ e.invocations depth deed)
    (client : i.entry.2 = .client) : (e.perform deed).running? = some (i.entry.1, i.source, i.event) := by
  cases deed with
  | advance =>
    rw [invocations] at invoked
    split at invoked
    · next source event entry pending failed rest frames =>
      obtain ⟨listener, target⟩ := entry
      split at invoked
      · obtain rfl := List.mem_singleton.mp invoked
        obtain rfl : target = .client := client
        simp [perform, step?, frames, running?, push]
      · contradiction
    · contradiction
  | _ => contradiction

/-! ## What deeds do to the stack -/

/-- The listener that is called by the lowest of some frames, if that is a call. -/
def earliestCall (frames : List Frame) : List ListenerId :=
  match frames.getLast? with
  | some (.call listener _ _) => [listener]
  | _ => []

private theorem earliestCall_append (new : List Frame) {above : List Frame} (some : above ≠ []) :
    earliestCall (new ++ above) = earliestCall above := by
  rw [earliestCall, List.getLast?_append_of_ne_nil new some]
  rfl

/-- The frames that go on when a client listener ends: the dispatch that called it counts its failure. -/
def resumed (failing : Bool) : List Frame → List Frame
  | .dispatch source event pending failed :: rest =>
    .dispatch source event pending (if failing then failed + 1 else failed) :: rest
  | frames => frames

private theorem resumed_append (failing : Bool) {above : List Frame} (some : above ≠ []) (below : List Frame) :
    resumed failing (above ++ below) = resumed failing above ++ below := by
  match above, some with
  | .dispatch source event pending count :: rest, _ => rfl
  | .refresh changes :: rest, _ => rfl
  | .call listener source event :: rest, _ => rfl

private theorem earliestCall_resumed (failing : Bool) (above : List Frame) :
    earliestCall (resumed failing above) = earliestCall above := by
  match above with
  | [] => rfl
  | .refresh changes :: rest => rfl
  | .call listener source event :: rest => rfl
  | [.dispatch source event pending count] => rfl
  | .dispatch source event pending count :: f :: rest =>
    exact (earliestCall_append [_] (List.cons_ne_nil f rest)).trans
      (earliestCall_append [_] (List.cons_ne_nil f rest)).symm

/-- A client listener that ends leaves what is below its call. -/
theorem frames_finish {listener : ListenerId} {source : Observable} {event : Event} {rest : List Frame}
    (frames : e.frames = .call listener source event :: rest) (failing : Bool) :
    (e.finish failing).frames = resumed failing rest := by
  rw [finish, frames]
  cases rest with
  | nil => rfl
  | cons f below => cases f <;> rfl

/-- What a client puts under way comes on top of what is there. -/
theorem frames_perform (permitted : e.Permits deed) (client : deed.byClient) :
    ∃ new, (e.perform deed).frames = new ++ e.frames := by
  cases deed with
  | add | remove | clear => exact ⟨[], rfl⟩
  | dispatch node source event => exact ⟨[.dispatch source event (e.cell node).listeners 0], rfl⟩
  | update features =>
    refine ⟨[.refresh ({ e with features } : Engine).changedLists], ?_⟩
    rw [perform, update_eq]
    exact congrArg _ (noteValues_stage ..).1.frames
  | aside later => exact ⟨[], permitted.2.1⟩
  | finish | advance => contradiction

/-- A composite that is given an event dispatches one of its own, or nothing. -/
theorem frames_relayTo (e : Engine) (o : Observable) :
    ∃ new, (e.relayTo o).frames = new ++ e.frames ∧ earliestCall new = [] := by
  rw [relayTo]
  split
  · rw [react]
    split
    · exact ⟨[], rfl, rfl⟩
    · dsimp only
      split
      · exact ⟨[], rfl, rfl⟩
      · exact ⟨[.dispatch ..], rfl, rfl⟩
  · exact ⟨[], rfl, rfl⟩

/-- A step puts other frames in the place of the latest one, and the lowest of them is no call. -/
theorem Stepped.frames {e' : Engine} (stepped : e.Stepped e') :
    ∃ f rest new, e.frames = f :: rest ∧ e'.frames = new ++ rest ∧ earliestCall new = [] := by
  refine stepped.elim_unrolls
    (motive := fun e' => ∃ f rest new, e.frames = f :: rest ∧ e'.frames = new ++ rest ∧ earliestCall new = []) ?_ ?_
  · intro f new rest failures frames unrolls
    refine ⟨f, rest, new, frames, rfl, ?_⟩
    cases unrolls <;> rfl
  · intro source o event listener pending failed rest node frames named due
    exact ⟨_, rest, [_, _], frames, rfl, rfl⟩

/-! ## A dispatch among the deeds -/

/-- Where the dispatch over some frames stands: who is still waiting, who was called, and who of these failed. -/
inductive Serves (e : Engine) (base : List Frame) (source : Observable) (event : Event)
    (waiting : List (ListenerId × Target)) (called failed : List ListenerId) : Prop
  /-- It is under way, and a listener that it called and that is still running has not failed yet. -/
  | underway (above : List Frame) (frames : e.frames = above ++ .dispatch source event waiting failed.length :: base)
      (among : (failed ++ earliestCall above).Sublist called)
  /-- It has returned. -/
  | returned (frames : e.frames = base) (nobody : waiting = []) (among : failed.Sublist called)
      (failures : e.failures = failed.length)

/-- While the engine can step, nothing else is permitted. -/
theorem eq_advance (permitted : e.Permits deed) (stepping : e.step? ≠ none) : deed = .advance := by
  cases deed with
  | advance => rfl
  | finish failing =>
    refine absurd ?_ stepping
    obtain ⟨⟨listener, source, event⟩, running⟩ := Option.isSome_iff_exists.mp permitted
    obtain ⟨rest, frames⟩ := frames_of_running running
    rw [step?, frames]
  | aside => exact absurd permitted.1 stepping
  | add | remove | clear | dispatch | update => exact absurd permitted stepping

/-- What the dispatch itself does when it is its turn: it calls the next one who is waiting, or returns. -/
theorem serves_next (frames : e.frames = .dispatch source event waiting failed.length :: base)
    (among : failed.Sublist called) (permitted : e.Permits deed) :
    ∃ now later, waiting = now ++ later ∧
      e.invocations base.length deed = now.map (fun entry => ⟨entry, source, event⟩) ∧
      (e.perform deed).Serves base source event later (called ++ now.map Prod.fst)
        (failed ++ e.panics base.length deed) := by
  match waiting, frames with
  | [], frames =>
    have step : e.step? = some { e with frames := base, failures := failed.length } := by rw [step?, frames]
    obtain rfl := eq_advance permitted (step ▸ Option.some_ne_none _)
    refine ⟨[], [], rfl, by simp only [invocations, frames, List.map_nil], ?_⟩
    rw [perform, step, panics_advance, List.map_nil, List.append_nil, List.append_nil]
    exact .returned rfl rfl among rfl
  | (listener, .client) :: waiting, frames =>
    have step : e.step? = some { e with
        frames := .call listener source event :: .dispatch source event waiting failed.length :: base } := by
      rw [step?, frames]
      rfl
    obtain rfl := eq_advance permitted (step ▸ Option.some_ne_none _)
    refine ⟨[_], waiting, rfl, by simp only [invocations, frames, ↓reduceIte, List.map_cons, List.map_nil], ?_⟩
    rw [perform, step, panics_advance, List.append_nil]
    exact .underway [_] rfl (among.append (.refl _))
  | (listener, .relay o) :: waiting, frames =>
    let rest : Engine := { e with frames := .dispatch source event waiting failed.length :: base }
    have step : e.step? = some (rest.relayTo o) := by
      rw [step?, frames]
    obtain rfl := eq_advance permitted (step ▸ Option.some_ne_none _)
    obtain ⟨new, pushed, uncalled⟩ := frames_relayTo rest o
    refine ⟨[_], waiting, rfl, by simp only [invocations, frames, ↓reduceIte, List.map_cons, List.map_nil], ?_⟩
    rw [perform, step, panics_advance, List.append_nil]
    refine .underway new pushed ?_
    rw [uncalled, List.append_nil]
    exact among.trans (List.sublist_append_left ..)

section Meanwhile

variable {f : Frame} {above : List Frame}

/-- While a listener that the dispatch called is at work, steps are not its own. -/
theorem serves_stepped (frames : e.frames = f :: (above ++ .dispatch source event waiting failed.length :: base))
    (among : (failed ++ earliestCall (f :: above)).Sublist called) (permitted : e.Permits .advance) :
    e.invocations base.length .advance = [] ∧
      (e.perform .advance).Serves base source event waiting called (failed ++ e.panics base.length .advance) := by
  obtain ⟨next, step⟩ := Option.isSome_iff_exists.mp permitted
  obtain ⟨g, rest, new, latest, placed, uncalled⟩ := (stepped step).frames
  obtain ⟨rfl, rfl⟩ := List.cons.inj (frames.symm.trans latest)
  refine ⟨?_, ?_⟩
  · rw [invocations, frames]
    split
    · next same =>
      obtain ⟨-, rfl⟩ := List.cons.inj same
      refine if_neg ?_
      simp only [List.length_append, List.length_cons]
      omega
    · rfl
  · rw [perform, step, panics_advance, List.append_nil]
    refine .underway (new ++ above) (placed.trans (List.append_assoc ..).symm) ?_
    by_cases last : above = []
    · rw [last, List.append_nil, uncalled, List.append_nil]
      exact (List.sublist_append_left ..).trans among
    · rw [earliestCall_append new last, ← earliestCall_append [f] last]
      exact among

/-- When a listener ends, the dispatch counts its failure if the listener was called by the dispatch itself. -/
theorem serves_finished {failing : Bool}
    (frames : e.frames = f :: (above ++ .dispatch source event waiting failed.length :: base))
    (among : (failed ++ earliestCall (f :: above)).Sublist called) (permitted : e.Permits (.finish failing)) :
    (e.perform (.finish failing)).Serves base source event waiting called
      (failed ++ e.panics base.length (.finish failing)) := by
  obtain ⟨⟨listener, source', event'⟩, running⟩ := Option.isSome_iff_exists.mp permitted
  obtain ⟨rest, calls⟩ := frames_of_running running
  obtain ⟨rfl, rfl⟩ := List.cons.inj (frames.symm.trans calls)
  have after := frames_finish calls failing
  by_cases last : above = []
  · subst last
    refine .underway [] (after.trans ?_) ?_
    · cases failing <;> simp [resumed, panics, calls]
    · rw [show earliestCall [] = [] from rfl, List.append_nil]
      cases failing with
      | true =>
        have failure : e.panics base.length (.finish true) = [listener] := by simp [panics, calls]
        exact failure ▸ among
      | false =>
        have fine : e.panics base.length (.finish false) = [] := rfl
        rw [fine, List.append_nil]
        exact (List.sublist_append_left ..).trans among
  · have elsewhere : e.panics base.length (.finish failing) = [] := by
      have some := List.length_pos_of_ne_nil last
      cases failing with
      | true =>
        simp only [panics, calls, List.length_append, List.length_cons]
        exact if_neg (by omega)
      | false => rfl
    rw [elsewhere, List.append_nil]
    refine .underway (resumed failing above) (after.trans (resumed_append failing last _)) ?_
    rw [earliestCall_resumed, ← earliestCall_append [_] last]
    exact among

/-- What clients do while their listeners run leaves the dispatch where it is. -/
theorem serves_aside (frames : e.frames = f :: (above ++ .dispatch source event waiting failed.length :: base))
    (among : (failed ++ earliestCall (f :: above)).Sublist called) (permitted : e.Permits deed)
    (client : deed.byClient) : (e.perform deed).Serves base source event waiting called failed := by
  obtain ⟨new, placed⟩ := frames_perform permitted client
  refine .underway (new ++ f :: above) ?_ ?_
  · rw [placed, frames, List.append_assoc, List.cons_append]
  · rw [earliestCall_append new (List.cons_ne_nil f above)]
    exact among

end Meanwhile

/-- What clients do is neither a call by a dispatch nor a failure. -/
theorem unnoted_of_byClient (client : deed.byClient) (depth : ℕ) :
    e.invocations depth deed = [] ∧ e.panics depth deed = [] := by
  cases deed with
  | finish | advance => contradiction
  | _ => exact ⟨rfl, rfl⟩

/-- A deed calls the next of those who are waiting, or nobody. -/
theorem Serves.perform (serves : e.Serves base source event waiting called failed)
    (underway : base.length < e.frames.length) (permitted : e.Permits deed) :
    ∃ now later, waiting = now ++ later ∧
      e.invocations base.length deed = now.map (fun entry => ⟨entry, source, event⟩) ∧
      (e.perform deed).Serves base source event later (called ++ now.map Prod.fst)
        (failed ++ e.panics base.length deed) := by
  cases serves with
  | returned frames => exact absurd (congrArg List.length frames) underway.ne'
  | underway above frames among =>
    rcases above with _ | ⟨f, above⟩
    · rw [show earliestCall [] = [] from rfl, List.append_nil] at among
      exact serves_next frames among permitted
    · refine ⟨[], waiting, rfl, ?_⟩
      rw [List.map_nil, List.map_nil, List.append_nil]
      cases client : deed.byClient with
      | true =>
        obtain ⟨uncalled, unfailed⟩ := unnoted_of_byClient (e := e) client base.length
        rw [uncalled, unfailed, List.append_nil]
        exact ⟨rfl, serves_aside frames among permitted client⟩
      | false =>
        cases deed with
        | advance => exact serves_stepped frames among permitted
        | finish failing => exact ⟨rfl, serves_finished frames among permitted⟩
        | _ => contradiction

/-- As long as the dispatch is under way, it has called those who listened at its start up to some of them, in their
order, and the others wait. -/
theorem serves_after {deeds : ℕ → Deed} {n : ℕ}
    (frames : e.frames = .dispatch source event waiting 0 :: base)
    (underway : ∀ m < n, base.length < (e.after deeds m).frames.length)
    (permitted : ∀ m < n, (e.after deeds m).Permits (deeds m)) :
    ∃ past later, waiting = past ++ later ∧
      noted (invocations base.length) e deeds n = past.map (fun entry => ⟨entry, source, event⟩) ∧
      (e.after deeds n).Serves base source event later (past.map Prod.fst)
        (noted (panics base.length) e deeds n) := by
  induction n with
  | zero => exact ⟨[], waiting, rfl, rfl, .underway [] frames (.refl _)⟩
  | succ n ih =>
    obtain ⟨past, later, split, invoked, serves⟩ :=
      ih (fun m less => underway m (Nat.lt_succ_of_lt less)) fun m less => permitted m (Nat.lt_succ_of_lt less)
    obtain ⟨now, rest, next, calls, serves⟩ :=
      serves.perform (underway n (Nat.lt_succ_self n)) (permitted n (Nat.lt_succ_self n))
    refine ⟨past ++ now, rest, ?_, ?_, ?_⟩
    · rw [split, next, List.append_assoc]
    · rw [noted, invoked, calls, List.map_append]
    · rw [List.map_append]
      exact serves

/-! ## The end of a dispatch -/

/-- Unless a client does something or a dispatch begins, a deed leaves less to do. -/
theorem pace_perform (permitted : e.Permits deed) (calm : ¬ e.Stirs deed) :
    Frame.pace (e.perform deed).frames < Frame.pace e.frames := by
  obtain ⟨engine, same⟩ := not_or.mp calm
  cases deed with
  | advance =>
    obtain ⟨next, step⟩ := Option.isSome_iff_exists.mp permitted
    rw [perform, step, Option.getD_some] at same ⊢
    refine (stepped step).elim_unrolls
      (motive := fun e' => ¬ e.dispatches < e'.dispatches → Frame.pace e'.frames < Frame.pace e.frames) ?_ ?_ same
    · intro f new rest failures frames unrolls _
      rw [frames]
      exact unrolls.pace_lt rest
    · intro source o event listener pending failed rest node frames named due same
      refine absurd ?_ same
      rw [dispatches, dispatches, frames, List.countP_cons, List.countP_cons, List.countP_cons]
      exact Nat.lt_succ_self _
  | finish failing => exact (finished permitted failing).pace_lt
  | _ => exact absurd rfl engine

/-- If clients do something only finitely often, and dispatches begin only finitely often, everything above
some depth comes to an end. -/
theorem exists_emptied {depth : ℕ} {deeds : ℕ → Deed}
    (permitted : ∀ n, depth < (e.after deeds n).frames.length → (e.after deeds n).Permits (deeds n))
    (finite : {n | depth < (e.after deeds n).frames.length ∧ (e.after deeds n).Stirs (deeds n)}.Finite) :
    ∃ n, (e.after deeds n).frames.length ≤ depth := by
  by_contra! underway
  obtain ⟨last, bound⟩ := finite.bddAbove
  let paces (n : ℕ) : ℕ ×ₗ ℕ := Frame.pace (e.after deeds (last + 1 + n)).frames
  have slower (n : ℕ) : paces (n + 1) < paces n := by
    refine pace_perform (permitted _ (underway _)) fun stirs => ?_
    have late : last + 1 + n ≤ last := bound ⟨underway _, stirs⟩
    omega
  exact not_strictAnti_of_wellFoundedLT paces (strictAnti_nat_of_succ_lt slower)

/-- Whatever listeners do while a dispatch is under way (add, remove and clear listeners, change the environment,
dispatch again, fail), if they do so only finitely often the dispatch returns: it has called exactly those who
listened when it started, each once and in their order, it comes back with the number of those who failed, and the
listeners of the node are what the edits made of them. -/
theorem dispatch_snapshot {deeds : ℕ → Deed}
    (permitted : ∀ n, e.frames.length < ((e.pushDispatch id source event).after deeds n).frames.length →
      ((e.pushDispatch id source event).after deeds n).Permits (deeds n))
    (finite : {n | e.frames.length < ((e.pushDispatch id source event).after deeds n).frames.length ∧
      ((e.pushDispatch id source event).after deeds n).Stirs (deeds n)}.Finite) :
    ∃ n, e.Served id source event deeds n := by
  classical
  have emptied := exists_emptied permitted finite
  have underway : ∀ m < Nat.find emptied,
      e.frames.length < ((e.pushDispatch id source event).after deeds m).frames.length :=
    fun m less => Nat.lt_of_not_le (Nat.find_min emptied less)
  have allowed := fun m less => permitted m (underway m less)
  obtain ⟨past, later, split, invoked, serves⟩ :=
    serves_after (e := e.pushDispatch id source event) rfl underway allowed
  refine ⟨Nat.find emptied, ?_⟩
  cases serves with
  | underway above frames among =>
    have low := Nat.find_spec emptied
    rw [frames, List.length_append, List.length_cons] at low
    omega
  | returned frames nobody among failures =>
    rw [nobody, List.append_nil] at split
    rw [← split] at invoked among
    refine ⟨underway, fun m less => step_or_running ?_, frames, invoked, fun m i => running_of_invoked, among, failures,
      listeners_after allowed id⟩
    exact List.ne_nil_of_length_pos (Nat.zero_lt_of_lt (underway m less))

/-- Two listeners of a channel. -/
def guestbook : Engine :=
  ((({ features := {} } : Engine).register 0 .client).2.register 0 .client).2

/-- The first listener leaves, brings another one, and sends a number of its own, at which the newcomer fails; it
clears the channel and fails itself. The second one is called nevertheless, and brings somebody. -/
def visits : List Deed :=
  [.advance, .remove 0 0, .add 0 .client, .dispatch 0 (.channel 0) (.signal 8), .advance, .finish false, .advance,
    .finish true, .advance, .clear 0, .finish true, .advance, .add 0 .client, .finish false, .advance]

/-- The visits, after which the engine has nothing to do. -/
def evening (n : ℕ) : Deed := visits[n]?.getD .advance

private theorem evening_underway :
    ∀ n < 15, 0 < ((guestbook.pushDispatch 0 (.channel 0) (.signal 7)).after evening n).frames.length := by
  decide +kernel

private theorem evening_over (n : ℕ) :
    ((guestbook.pushDispatch 0 (.channel 0) (.signal 7)).after evening (15 + n)).frames = [] := by
  induction n with
  | zero => rfl
  | succ n ih =>
    have nothing : evening (15 + n) = .advance := by
      rw [evening, List.getElem?_eq_none (show visits.length ≤ 15 + n from Nat.le_add_right ..)]
      rfl
    rw [← Nat.add_assoc, after, nothing, perform, step?, ih]
    exact ih

theorem dispatch_snapshot_guestbook : guestbook.Served 0 (.channel 0) (.signal 7) evening 15 := by
  have early {n : ℕ}
      (underway : 0 < ((guestbook.pushDispatch 0 (.channel 0) (.signal 7)).after evening n).frames.length) :
      n < 15 := by
    by_contra! late
    obtain ⟨k, rfl⟩ := Nat.exists_eq_add_of_le late
    rw [evening_over] at underway
    exact Nat.lt_irrefl 0 underway
  have permitted : ∀ n < 15,
      ((guestbook.pushDispatch 0 (.channel 0) (.signal 7)).after evening n).Permits (evening n) := by
    intro n less
    interval_cases n <;> rfl
  have returns : ∃ n, guestbook.Served 0 (.channel 0) (.signal 7) evening n :=
    dispatch_snapshot (fun n underway => permitted n (early underway))
      ((Set.finite_lt_nat 15).subset fun n stirred => early stirred.1)
  obtain ⟨n, served⟩ := returns
  have last : n = 15 := by
    refine le_antisymm (not_lt.mp fun late => ?_) (not_lt.mp fun less => ?_)
    · exact absurd (served.underway 15 late) (by rw [evening_over 0]; exact Nat.not_lt_zero _)
    · have busy := evening_underway n less
      rw [served.returned] at busy
      exact Nat.lt_irrefl 0 busy
  exact last ▸ served

end Engine

end MediaWatch
