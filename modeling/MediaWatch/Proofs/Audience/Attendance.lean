import MediaWatch.Engine.Notice
import MediaWatch.Proofs.Audience.Change
import Mathlib.Algebra.Order.BigOperators.Group.List
import Mathlib.Algebra.Order.Group.Nat

/-! # Clients that only listen

While its clients do nothing but listen, the engine runs until nothing is under way. The moves that this takes are
counted beforehand: so many for each frame on the stack, and so many for each composite that may still tell its
listeners. Nobody is told anything in those moves but what the notices say.
-/

namespace MediaWatch

private theorem sum_map_le_of_subperm {α : Type} {xs ys : List α} (less : xs.Subperm ys) (f : α → ℕ) :
    (xs.map f).sum ≤ (ys.map f).sum := by
  obtain ⟨zs, perm, sublist⟩ := less
  rw [← (perm.map f).sum_eq]
  exact (sublist.map f).sum_le_sum fun _ _ => Nat.zero_le _

/-- The cells of different nodes come to no more than all cells. -/
theorem Cells.sum_get_le (f : Cell → ℕ) (empty : f {} = 0) (cells : Cells) {ids : List NodeId} (once : ids.Nodup) :
    (ids.map fun i => f (cells.get i)).sum ≤ (cells.map fun entry => f entry.2).sum := by
  induction cells generalizing ids with
  | nil =>
    have nothing : ∀ i ∈ ids, f (Cells.get i []) = 0 := fun _ _ => empty
    rw [List.map_congr_left nothing, List.map_const', List.sum_replicate]
    simp
  | cons entry rest ih =>
    obtain ⟨key, cell⟩ := entry
    have others : ∀ others : List NodeId, others.Nodup → key ∉ others →
        (others.map fun i => f (Cells.get i ((key, cell) :: rest))).sum ≤ (rest.map fun entry => f entry.2).sum := by
      intro others once absent
      refine Eq.trans_le (congrArg List.sum (List.map_congr_left fun i mem => ?_)) (ih once)
      rw [Cells.get, if_neg]
      rintro rfl
      exact absent mem
    rw [List.map_cons, List.sum_cons]
    by_cases mem : key ∈ ids
    · have perm := (List.perm_cons_erase mem).map fun i => f (Cells.get i ((key, cell) :: rest))
      rw [perm.sum_eq, List.map_cons, List.sum_cons]
      have here : Cells.get key ((key, cell) :: rest) = cell := if_pos rfl
      rw [here]
      exact Nat.add_le_add_left (others _ (once.erase key) fun again => (once.mem_erase_iff.mp again).1 rfl) _
    · exact (others ids once mem).trans (Nat.le_add_left _ _)

/-- A sum over what has an image is one over the images. -/
theorem sum_map_filterMap {α β : Type} {f : α → ℕ} {g : β → ℕ} {image : α → Option β} {xs : List α}
    (same : ∀ x ∈ xs, ∃ y, image x = some y ∧ f x = g y) : (xs.map f).sum = ((xs.filterMap image).map g).sum := by
  induction xs with
  | nil => rfl
  | cons x xs ih =>
    obtain ⟨⟨y, found, eq⟩, others⟩ := List.forall_mem_cons.mp same
    rw [List.filterMap_cons_some found, List.map_cons, List.map_cons, List.sum_cons, List.sum_cons, eq, ih others]

/-- How many moves of the engine a cell is good for: those of a composite that has it and may
still tell its listeners. -/
def Cell.share (cell : Cell) : ℕ := if cell.listeners = [] then 0 else 1 + 2 * cell.listeners.length

namespace Engine

/-- No node has more listeners than there are registrations. -/
theorem listeners_le_registrations (e : Engine) (i : NodeId) : (e.cell i).listeners.length ≤ e.registrations := by
  have one := Cells.sum_get_le (fun cell => cell.listeners.length) rfl e.cells (List.nodup_singleton i)
  rw [List.map_singleton, List.sum_singleton] at one
  rw [registrations, List.length_flatMap]
  exact one

/-- The shares of all cells are within the registrations there are. -/
theorem sum_share_le (e : Engine) :
    (e.cells.map fun entry => entry.2.share).sum ≤ e.cells.length + 2 * e.registrations := by
  rw [registrations]
  induction e.cells with
  | nil => simp
  | cons entry rest ih =>
    have mine : entry.2.share ≤ 1 + 2 * entry.2.listeners.length := by
      rw [Cell.share]
      split <;> omega
    simp only [List.map_cons, List.sum_cons, List.flatMap_cons, List.length_append, List.length_cons]
    omega

/-- How many listeners an observable has. -/
def heads (e : Engine) (o : Observable) : ℕ := o.id?.elim 0 fun i => (e.cell i).listeners.length

/-- How many moves of the engine a frame is good for, those for the frames that its lists put on the stack included.
The end of a client listener is a move of its own. -/
def toilOf (e : Engine) : Frame → ℕ
  | .refresh pending => 1 + (pending.map fun change => 2 + 2 * (e.cell change.1.id).listeners.length).sum
  | .dispatch _ _ pending _ => 1 + 2 * pending.length
  | .call _ _ _ => 1

/-- Of a change the lists that are to be told are good for no more moves than twice the steps allowed for them. -/
theorem toilOf_refresh_le (e : Engine) (pending : List (MediaList × Bool)) :
    e.toilOf (.refresh pending) ≤ 2 * frameWork e.registrations (.refresh pending) := by
  simp only [toilOf, frameWork]
  induction pending with
  | nil => simp
  | cons change rest ih =>
    have first := e.listeners_le_registrations change.1.id
    rw [List.map_cons, List.sum_cons, List.length_cons, Nat.add_one_mul rest.length]
    omega

/-- A frame is good for the same while registrations stay what they are. -/
theorem toilOf_congr {e e' : Engine} (same : ∀ i, (e'.cell i).listeners = (e.cell i).listeners) :
    e'.toilOf = e.toilOf := by
  funext f
  cases f with
  | refresh pending => simp only [toilOf, same]
  | dispatch | call => rfl

/-- What stands in the place of a frame is good for fewer moves. -/
theorem Unrolls.toil_lt {e : Engine} {f : Frame} {new : List Frame} (unrolls : e.Unrolls f new) :
    (new.map e.toilOf).sum < e.toilOf f := by
  cases unrolls <;>
    simp only [List.map_cons, List.map_nil, List.sum_cons, List.sum_nil, toilOf, List.length_cons, List.length_nil] <;>
    omega

private theorem heads_congr {e e' : Engine} (same : ∀ i, (e'.cell i).listeners = (e.cell i).listeners) :
    e'.heads = e.heads := by
  funext o
  simp only [heads, same]

end Engine

/-- What notices tell a listener. -/
def Notice.told (l : ListenerId) (notices : List Notice) : List Reading :=
  (notices.filter (·.listener == l)).filterMap Notice.reading?

/-- Whether a frame is a call of a listener that is given a reading. -/
def Frame.rings (l : ListenerId) : Frame → Bool
  | .call h _ (.changed _) => h == l
  | _ => false

/-- How many calls of a listener that is given a reading are under way. -/
def Engine.ringing (e : Engine) (l : ListenerId) : ℕ := e.frames.countP (Frame.rings l)

namespace Engine

variable {e e' : Engine}

private theorem attend_of_idle (idle : e.frames = []) (n : ℕ) : e.attend n = ([], e) := by
  cases n with
  | zero => rfl
  | succ n => simp only [attend, running?, step?, idle]

private theorem attend_of_running {h : ListenerId} {source : Observable} {event : Event}
    (running : e.running? = some (h, source, event)) (n : ℕ) :
    e.attend (n + 1) = (⟨h, source, event⟩ :: ((e.finish false).attend n).1, ((e.finish false).attend n).2) := by
  simp only [attend, running]

private theorem attend_of_step (step : e.step? = some e') (n : ℕ) : e.attend (n + 1) = e'.attend n := by
  have silent : e.running? = none := by
    rw [running?]
    split
    · next frames =>
      rw [step?, frames] at step
      contradiction
    · rfl
  simp only [attend, silent, step]

/-- The end of a call takes it off what is under way. -/
theorem ringing_finish {h : ListenerId} {source : Observable} {event : Event}
    (running : e.running? = some (h, source, event)) (l : ListenerId) :
    e.ringing l = (Notice.told l [⟨h, source, event⟩]).length + (e.finish false).ringing l := by
  obtain ⟨rest, frames⟩ := frames_of_running running
  have mine : (Notice.told l [⟨h, source, event⟩]).length = if Frame.rings l (.call h source event) then 1 else 0 := by
    cases event with
    | changed r => by_cases same : h = l <;> simp [Notice.told, Notice.reading?, Frame.rings, same]
    | signal n => by_cases same : h = l <;> simp [Notice.told, Notice.reading?, Frame.rings, same]
  have others : (e.finish false).ringing l = rest.countP (Frame.rings l) := by
    rw [ringing, finish, frames]
    split
    · next same =>
      obtain ⟨-, rfl⟩ := List.cons.inj same
      rfl
    · next same =>
      obtain ⟨-, rfl⟩ := List.cons.inj same
      rfl
    · next other => exact absurd rfl (other _ _ _ _)
  rw [ringing, frames, List.countP_cons, mine, others, Nat.add_comm]

end Engine

private theorem Notice.told_cons (l : ListenerId) (n : Notice) (notices : List Notice) :
    (Notice.told l (n :: notices)).length = (Notice.told l [n]).length + (Notice.told l notices).length := by
  rw [← List.singleton_append, Notice.told, List.filter_append, List.filterMap_append, List.length_append]
  rfl

/-- A step that calls the listener puts the call under way. -/
theorem Engine.Stepped.ringing {e e' : Engine} (stepped : e.Stepped e') (l : ListenerId) :
    e'.ringing l = e.ringing l + e.calling?.toList.countP (·.1 == l) := by
  cases stepped with
  | refreshed frames => simp [Engine.ringing, frames, calling?_of_refresh frames, Frame.rings]
  | stale frames other => simp [Engine.ringing, frames, calling?_of_refresh frames, Frame.rings]
  | told frames same => simp [Engine.ringing, frames, calling?_of_refresh frames, Frame.rings]
  | dispatched frames => simp [Engine.ringing, frames, calling?_of_told frames, Frame.rings]
  | @called source event listener pending failed rest frames =>
    cases event with
    | changed r => simp [Engine.ringing, frames, calling?_of_client frames, Frame.rings, List.countP_cons]
    | signal n => simp [Engine.ringing, frames, calling?, Frame.rings]
  | passed frames idle => simp [Engine.ringing, frames, calling?_of_relay frames, Frame.rings]
  | reacted frames named alive due => simp [Engine.ringing, frames, calling?_of_relay frames, Frame.rings]

namespace Audience

variable {a a' : Audience}

/-- How many moves of the engine the composites that may still tell their listeners are good for. -/
def unrest (a : Audience) : ℕ := ((a.made.filter a.restless).map fun o => 1 + 2 * a.engine.heads o).sum

/-- How many moves of the engine are left at most. -/
def toil (a : Audience) : ℕ := (a.engine.frames.map a.engine.toilOf).sum + a.unrest

private theorem unrest_le (same : ∀ i, (a'.engine.cell i).listeners = (a.engine.cell i).listeners)
    (calmer : Calmer a a') (once : a'.made.Nodup) : a'.unrest ≤ a.unrest := by
  rw [unrest, unrest, Engine.heads_congr same]
  exact sum_map_le_of_subperm (calmer.subperm once) _

private theorem toil_lt (same : ∀ i, (a'.engine.cell i).listeners = (a.engine.cell i).listeners) (calmer : Calmer a a')
    (once : a'.made.Nodup)
    (less : (a'.engine.frames.map a.engine.toilOf).sum < (a.engine.frames.map a.engine.toilOf).sum) :
    a'.toil < a.toil := by
  rw [toil, toil, Engine.toilOf_congr same]
  exact Nat.add_lt_add_of_lt_of_le less (unrest_le same calmer once)

/-- With clients that only listen everything comes to rest within so many moves, and a listener hears something as often
as the notices tell it something. A call that is under way was heard already and gives its notice when it ends. -/
def Attended (a : Audience) (n : ℕ) (l : ListenerId) : Prop :=
  ∃ ms heard, Run Still a ms { a.withEngine (a.engine.attend n).2 with heard } ∧ (a.engine.attend n).2.frames = [] ∧
    heard.countP (·.1 == l) + a.engine.ringing l =
      a.heard.countP (·.1 == l) + (Notice.told l (a.engine.attend n).1).length

private theorem Idle.attended (idle : a.Idle) (n : ℕ) (l : ListenerId) : a.Attended n l := by
  have frames : a.engine.frames = [] := idle
  rw [Attended, Engine.attend_of_idle frames]
  exact ⟨[], a.heard, .nil a, frames, by simp [Engine.ringing, frames, Notice.told]⟩

private theorem attended_of_advance {n : ℕ} {l : ListenerId} (allowed : a.Allows .advance)
    (later : (a.act .advance).Attended n l) : a.Attended (n + 1) l := by
  obtain ⟨e', step⟩ := Option.isSome_iff_exists.mp allowed
  have acted : a.act .advance = { a.withEngine e' with heard := a.heard ++ a.engine.calling?.toList } := by
    show a.advance = _
    rw [Audience.advance, step]
  rw [acted] at later
  obtain ⟨ms, heard, run, rest, count⟩ := later
  rw [Attended, Engine.attend_of_step step]
  refine ⟨.advance :: ms, heard, .cons allowed (a.still_of_isEngine rfl) (acted ▸ run), rest, ?_⟩
  have ringing := (Engine.stepped step).ringing l
  have count : heard.countP (·.1 == l) + e'.ringing l =
    (a.heard ++ a.engine.calling?.toList).countP (·.1 == l) + (Notice.told l (e'.attend n).1).length := count
  rw [List.countP_append] at count
  omega

private theorem attended_of_finish {n : ℕ} {l : ListenerId} (allowed : a.Allows (.finish false))
    (later : (a.act (.finish false)).Attended n l) : a.Attended (n + 1) l := by
  obtain ⟨⟨h, source, event⟩, running⟩ := Option.isSome_iff_exists.mp allowed
  obtain ⟨ms, heard, run, rest, count⟩ := later
  rw [Attended, Engine.attend_of_running running]
  refine ⟨.finish false :: ms, heard, .cons allowed (a.still_of_isEngine rfl) run, rest, ?_⟩
  have ringing := Engine.ringing_finish running l
  have count : heard.countP (·.1 == l) + (a.engine.finish false).ringing l =
    a.heard.countP (·.1 == l) + (Notice.told l ((a.engine.finish false).attend n).1).length := count
  rw [Notice.told_cons]
  omega

namespace Orderly

/-- The frames in the place of another one are good for fewer moves. -/
theorem toil_replaced (orderly : a.Orderly) {f : Frame} {new rest : List Frame} (made : a'.made = a.made)
    (engine : a'.engine = { a.engine with frames := a'.engine.frames, failures := a'.engine.failures })
    (before : a.engine.frames = f :: rest) (after : a'.engine.frames = new ++ rest)
    (asks : ∀ g ∈ new, ∀ i, g.asks i → (a.engine.cell i).listeners ≠ [] ∨ f.asks i)
    (less : (new.map a.engine.toilOf).sum < a.engine.toilOf f) : a'.toil < a.toil := by
  refine toil_lt (fun i => ?_) (orderly.calmer_replaced made engine before after asks) (made ▸ orderly.madeOnce) ?_
  · rw [engine]
    rfl
  · rw [after, before, List.map_append, List.sum_append, List.map_cons, List.sum_cons]
    exact Nat.add_lt_add_right less _

private theorem toil_finished (orderly : a.Orderly) {failing : Bool} {e' : Engine}
    (finished : a.engine.Finished failing e') : (a.withEngine e').toil < a.toil := by
  refine toil_lt ?_ (orderly.calmer_finished finished) orderly.madeOnce ?_
  · cases finished <;> exact fun _ => rfl
  · cases finished with
    | returned frames | ended frames =>
      rw [frames, List.map_cons, List.sum_cons]
      exact Nat.lt_add_of_pos_left Nat.one_pos

/-- What a composite tells its listeners is paid for by its being restless no more. -/
theorem toil_reacted (orderly : a.Orderly) (a' : Audience) {source s : Observable} {event : Event} {h : ListenerId}
    {pending : List (ListenerId × Target)} {failed : Nat} {rest : List Frame} {k : NodeId}
    (frames : a.engine.frames = .dispatch source event ((h, .relay s) :: pending) failed :: rest)
    (named : s.id? = some k) (due : a.engine.due s) (made : a'.made = a.made)
    (told : a'.engine = { a.informed s k with
      frames := .dispatch s (.changed (a.engine.reading s)) (a.engine.cell k).listeners 0 ::
        .dispatch source event pending failed :: rest }) : a'.toil < a.toil := by
  have same : ∀ i, (a'.engine.cell i).listeners = (a.engine.cell i).listeners := by
    intro i
    rw [told]
    show ((a.informed s k).cell i).listeners = _
    rw [informed, Engine.cell_modifyCell]
    split <;> rfl
  have heads : a.engine.heads s = (a.engine.cell k).listeners.length := by
    rw [Engine.heads, named]
    rfl
  have calmer := sum_map_le_of_subperm (orderly.calmer_reacted a' frames named due made told) fun o =>
    1 + 2 * a.engine.heads o
  rw [List.map_cons, List.sum_cons, heads] at calmer
  rw [toil, toil, unrest, unrest, Engine.toilOf_congr same, Engine.heads_congr same, frames, told]
  simp only [List.map_cons, List.sum_cons, Engine.toilOf, List.length_cons]
  omega

private theorem toil_stepped (orderly : a.Orderly) {e' : Engine} (stepped : a.engine.Stepped e')
    (heard : List (ListenerId × Reading)) : Audience.toil { a.withEngine e' with heard } < a.toil := by
  refine stepped.elim_unrolls (motive := fun e' => Audience.toil { a.withEngine e' with heard } < a.toil) ?_ ?_
  · intro f new rest failures frames unrolls
    exact orderly.toil_replaced rfl rfl frames rfl (orderly.asks_unrolled unrolls) unrolls.toil_lt
  · intro source s event h pending failed rest k frames named due
    exact orderly.toil_reacted _ frames named due rfl rfl

/-- Every move of the engine leaves fewer. -/
theorem toil_engine (orderly : a.Orderly) {m : Move} (allowed : a.Allows m) (engine : m.isEngine) :
    (a.act m).toil < a.toil := by
  cases m with
  | advance =>
    obtain ⟨e', step⟩ := Option.isSome_iff_exists.mp allowed
    show a.advance.toil < a.toil
    rw [Audience.advance, step]
    exact orderly.toil_stepped (Engine.stepped step) _
  | finish failing => exact orderly.toil_finished (Engine.finished allowed failing)
  | _ => contradiction

/-- Composites that nothing asks are good for what the cells of their nodes are good for. -/
theorem unrest_eq_shares (orderly : a.Orderly) (unasked : ∀ f ∈ a.engine.frames, ∀ i, f.asks i = false) :
    a.unrest =
      (((a.made.filter a.restless).filterMap (·.id?)).map fun i => (a.engine.cells.get i).share).sum := by
  refine sum_map_filterMap fun o mem => ?_
  obtain ⟨made, restless⟩ := List.mem_filter.mp mem
  obtain ⟨i, -, named⟩ := orderly.catalogue.named o made
  obtain ⟨-, -, stirred⟩ := (restless_iff named).mp restless
  have listened : (a.engine.cell i).listeners ≠ [] := stirred.resolve_right fun ⟨f, mem, asked⟩ => by
    rw [unasked f mem] at asked
    contradiction
  refine ⟨i, named, ?_⟩
  rw [Engine.heads, named]
  exact (if_neg listened).symm

/-- What composites that nothing asks are good for is within the registrations there are. -/
theorem unrest_le_registrations (orderly : a.Orderly) (unasked : ∀ f ∈ a.engine.frames, ∀ i, f.asks i = false) :
    a.unrest ≤ a.engine.cells.length + 2 * a.engine.registrations := by
  have named : ((a.made.filter a.restless).map Observable.id?).Nodup :=
    orderly.catalogue.once.sublist (List.filter_sublist.map _)
  have once : ((a.made.filter a.restless).filterMap (·.id?)).Nodup := by
    have ids := List.filterMap_map (f := Observable.id?) (g := id) (l := a.made.filter a.restless)
    exact ids ▸ named.filterMap fun _ _ _ left right => left.trans right.symm
  rw [orderly.unrest_eq_shares unasked]
  exact (Cells.sum_get_le Cell.share rfl a.engine.cells once).trans a.engine.sum_share_le

/-- A change at rest is good for no more moves than twice the steps that are allowed for. -/
theorem toil_update (orderly : a.Orderly) (idle : a.Idle) (features : Media.Features) :
    (a.act (.update features)).toil ≤ 2 * (a.act (.update features)).engine.work := by
  have frames := frames_update a features
  have silent : a.engine.frames = [] := idle
  rw [silent] at frames
  have calm := (orderly.update features).unrest_le_registrations fun f mem i => by
    rw [frames] at mem
    obtain rfl := List.mem_singleton.mp mem
    rfl
  generalize ({ a.engine with features } : Engine).changedLists = changed at frames
  generalize a.act (.update features) = after at frames calm ⊢
  have first := after.engine.toilOf_refresh_le changed
  rw [toil, Engine.work, frames]
  simp only [List.map_cons, List.map_nil, List.sum_cons, List.sum_nil, List.foldr_cons, List.foldr_nil]
  omega

/-- Clients that only listen bring what is under way to rest in as many moves as it is good for. -/
theorem attended (orderly : a.Orderly) {n : ℕ} (enough : a.toil ≤ n) (l : ListenerId) : a.Attended n l := by
  induction n generalizing a with
  | zero =>
    have idle : a.Idle := a.idle_or_engine.resolve_right fun ⟨m, engine, allowed⟩ =>
      absurd ((orderly.toil_engine allowed engine).trans_le enough) (Nat.not_lt_zero _)
    exact idle.attended 0 l
  | succ n ih =>
    rcases a.idle_or_engine with idle | ⟨m, engine, allowed⟩
    · exact idle.attended (n + 1) l
    · cases m with
      | advance =>
        have less := orderly.toil_engine allowed rfl
        exact attended_of_advance allowed (ih (orderly.act allowed) (Nat.le_of_lt_succ (less.trans_le enough)))
      | finish failing =>
        -- A client that only listens does not fail.
        have allowed : a.Allows (.finish false) := allowed
        have less := orderly.toil_engine allowed rfl
        exact attended_of_finish allowed (ih (orderly.act allowed) (Nat.le_of_lt_succ (less.trans_le enough)))
      | _ => contradiction

end Orderly

end Audience

end MediaWatch
