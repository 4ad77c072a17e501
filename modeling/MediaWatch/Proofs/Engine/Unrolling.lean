import MediaWatch.Proofs.Engine.Stepping
import Mathlib.Algebra.GroupWithZero.Nat
import Mathlib.Data.Prod.Lex

/-! # What a step leaves on the stack

Unless a composite tells its listeners, a step only unrolls the latest frame: what it puts in its place has
fewer lists to tell of, or less that is pending. The end of a client listener leaves less as well.
-/

namespace MediaWatch

/-- How many lists are still to be told of by a frame. -/
def Frame.announced : Frame → ℕ
  | refresh pending => pending.length
  | _ => 0

/-- How many moves are left for a frame, without the frames that it puts on the stack. A client listener that is
called ends with a move of its own. -/
def Frame.weight : Frame → ℕ
  | dispatch _ _ pending _ => 2 * pending.length + 1
  | _ => 1

/-- What is left for frames: lists to be told of, then what is pending. -/
def Frame.pace (frames : List Frame) : ℕ ×ₗ ℕ :=
  toLex ((frames.map Frame.announced).sum, (frames.map Frame.weight).sum)

/-- What a step puts in the place of a frame, unless a composite tells its listeners. -/
inductive Engine.Unrolls (e : Engine) : Frame → List Frame → Prop
  | refreshed : Unrolls e (.refresh []) []
  | stale {change : MediaList × Bool} {pending : List (MediaList × Bool)} :
      Unrolls e (.refresh (change :: pending)) [.refresh pending]
  | told {l : MediaList} {now : Bool} {pending : List (MediaList × Bool)} :
      Unrolls e (.refresh ((l, now) :: pending))
        [.dispatch (.list l) (.changed (.truth now)) (e.cell l.id).listeners 0, .refresh pending]
  | dispatched {source : Observable} {event : Event} {failed : Nat} : Unrolls e (.dispatch source event [] failed) []
  | called {source : Observable} {event : Event} {h : ListenerId} {pending : List (ListenerId × Target)}
      {failed : Nat} :
      Unrolls e (.dispatch source event ((h, .client) :: pending) failed)
        [.call h source event, .dispatch source event pending failed]
  | passed {source y : Observable} {event : Event} {h : ListenerId} {pending : List (ListenerId × Target)}
      {failed : Nat} :
      Unrolls e (.dispatch source event ((h, .relay y) :: pending) failed) [.dispatch source event pending failed]

namespace Engine

variable {e e' : Engine} {f : Frame} {new : List Frame}

/-- A step unrolls the latest frame, or a composite tells its listeners. -/
theorem Stepped.elim_unrolls {motive : Engine → Prop} (stepped : e.Stepped e')
    (unrolled : ∀ f new rest failures, e.frames = f :: rest → e.Unrolls f new →
      motive { e with frames := new ++ rest, failures })
    (reacted : ∀ source s event h pending failed rest k,
      e.frames = .dispatch source event ((h, .relay s) :: pending) failed :: rest → s.id? = some k → e.due s →
        motive { e.modifyCell k (fun cell => { cell with baseline := e.reading s }) with
          frames := .dispatch s (.changed (e.reading s)) (e.cell k).listeners 0 ::
            .dispatch source event pending failed :: rest }) : motive e' := by
  cases stepped with
  | refreshed frames => exact unrolled _ _ _ e.failures frames .refreshed
  | stale frames other => exact unrolled _ _ _ e.failures frames .stale
  | told frames same => exact unrolled _ _ _ e.failures frames .told
  | dispatched frames => exact unrolled _ _ _ _ frames .dispatched
  | called frames => exact unrolled _ _ _ e.failures frames .called
  | passed frames idle => exact unrolled _ _ _ e.failures frames .passed
  | reacted frames named alive due => exact reacted _ _ _ _ _ _ _ _ frames named due

private theorem Unrolls.announced_le (unrolls : e.Unrolls f new) : (new.map Frame.announced).sum ≤ f.announced := by
  cases unrolls <;> simp [Frame.announced]

/-- What stands in the place of a frame has fewer lists to tell of, or less that is pending. -/
theorem Unrolls.less (unrolls : e.Unrolls f new) :
    (new.map Frame.announced).sum < f.announced ∨ (new.map Frame.weight).sum < f.weight := by
  cases unrolls with
  | refreshed | dispatched => exact .inr (Nat.succ_pos _)
  | stale | told => exact .inl (by simp [Frame.announced])
  | called | passed =>
    refine .inr ?_
    simp only [List.map_cons, List.map_nil, List.sum_cons, List.sum_nil, Frame.weight, List.length_cons]
    omega

theorem Unrolls.pace_lt (unrolls : e.Unrolls f new) (rest : List Frame) :
    Frame.pace (new ++ rest) < Frame.pace (f :: rest) := by
  have sums (measure : Frame → ℕ) :
      ((new ++ rest).map measure).sum = (new.map measure).sum + (rest.map measure).sum := by
    rw [List.map_append, List.sum_append]
  rw [Frame.pace, Frame.pace, sums, sums, List.map_cons, List.map_cons, List.sum_cons, List.sum_cons]
  rcases unrolls.less with less | less
  · exact Prod.Lex.toLex_lt_toLex.mpr (.inl (Nat.add_lt_add_right less _))
  · have announced := Nat.add_le_add_right unrolls.announced_le (rest.map Frame.announced).sum
    exact Prod.Lex.toLex_strictMono (Prod.mk_lt_mk_of_le_of_lt announced (Nat.add_lt_add_right less _))

theorem Finished.pace_lt {failing : Bool} (finished : e.Finished failing e') :
    Frame.pace e'.frames < Frame.pace e.frames := by
  cases finished with
  | returned frames | ended frames =>
    rw [frames]
    refine Prod.Lex.toLex_strictMono (Prod.mk_lt_mk_of_le_of_lt ?_ ?_)
    · exact Nat.le_add_left _ _
    · exact Nat.lt_add_of_pos_left Nat.one_pos

end Engine

end MediaWatch
