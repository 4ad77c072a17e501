import Mathlib.Algebra.Ring.Parity
import Mathlib.Data.List.Chain
import Mathlib.Data.Nat.Bits
import MediaWatch.Proofs.Audience.Change

/-! # When what a listener is told alternates

A condition notes each of its changes, and puts a dispatch under way that gives all its listeners the new value. A
listener that changes the environment while it runs has the later dispatches come before the rest of the earlier
ones, which still give the earlier values. So a listener may be told values out of order, of which some are no
change from what it was told last. That what it is told alternates can be seen call by call: it depends on
whether the value is outdated and on how many calls the listener still has to expect from further down the stack.
-/

namespace MediaWatch

namespace Audience

/-- What the dispatches under way will tell a listener. -/
def owed (a : Audience) (l : ListenerId) : List Reading := a.engine.frames.flatMap (a.engine.word l)

/-- What a move means for a listener of a condition: the listener is called, or the condition has changed and is about
to call it, or nothing. -/
inductive Turn (a a' : Audience) (l : ListenerId) (c : Condition) (i : NodeId) : Prop
  | none (heard : a'.heardBy l = a.heardBy l) (owed : a'.owed l = a.owed l)
      (baseline : (a'.engine.cell i).baseline = (a.engine.cell i).baseline)
      (uncalled : ∀ r, a.engine.calling? ≠ some (l, r))
  | called {r : Reading} (calling : a.engine.calling? = some (l, r))
      (heard : a'.heardBy l = a.heardBy l ++ [r]) (owed : a.owed l = r :: a'.owed l)
      (older : a'.owed l = a.engine.frames.tail.flatMap (a.engine.word l))
      (baseline : (a'.engine.cell i).baseline = (a.engine.cell i).baseline)
  | changed (heard : a'.heardBy l = a.heardBy l) (owed : a'.owed l = a.engine.reading (.condition c) :: a.owed l)
      (baseline : (a'.engine.cell i).baseline = a.engine.reading (.condition c))
      (due : (a.engine.cell i).baseline ≠ a.engine.reading (.condition c))
      (uncalled : ∀ r, a.engine.calling? ≠ some (l, r))

private theorem uncalled_of_silent {a : Audience} {l : ListenerId} (silent : a.engine.calling? = none) :
    ∀ r, a.engine.calling? ≠ some (l, r) := by
  rw [silent]
  exact fun r => (Option.some_ne_none _).symm

/-- What a listener that is not called was told stays what it is. -/
theorem heardBy_uncalled {a : Audience} {l : ListenerId} {e' : Engine}
    (uncalled : ∀ r, a.engine.calling? ≠ some (l, r)) :
    Audience.heardBy { a.withEngine e' with heard := a.heard ++ a.engine.calling?.toList } l = a.heardBy l := by
  have none : (a.engine.calling?.toList.filter fun entry => entry.1 == l) = [] := by
    refine List.filter_eq_nil_iff.mpr fun entry mem hit => ?_
    exact uncalled entry.2 (beq_iff_eq.mp hit ▸ Option.mem_toList.mp mem)
  simp only [heardBy, List.filter_append, none, List.append_nil]

private theorem informed_self (a : Audience) (s : Observable) (k : NodeId) :
    (a.informed s k).cell k = { a.engine.cell k with baseline := a.engine.reading s } := by
  rw [informed, Engine.cell_modifyCell, if_pos rfl]

namespace Orderly

variable {a a' : Audience} {l : ListenerId} {c : Condition} {i : NodeId}

/-- What a frame has for a listener of a condition is fixed when the frame is put on the stack. -/
theorem word_fixed (orderly : a.Orderly) (handle : (l, .condition c) ∈ a.handles) {f : Frame}
    (staged : f.Staged a.made a.handles) (e e' : Engine) : e'.word l f = e.word l f := by
  match f with
  | .refresh pending => rfl
  | .call listener source event => rfl
  | .dispatch source (.signal number) pending failed => rfl
  | .dispatch source (.changed r) pending failed =>
    by_cases mem : (l, .client) ∈ pending
    · obtain rfl := orderly.handle_unique handle (staged.2.2.2.2 l mem)
      rw [Engine.word_eq_given mem, Engine.word_eq_given mem]
      rfl
    · rw [Engine.word_eq_nil mem, Engine.word_eq_nil mem]

private theorem words_fixed (orderly : a.Orderly) (handle : (l, .condition c) ∈ a.handles)
    (e : Engine) {fs : List Frame}
    (staged : ∀ f ∈ fs, f.Staged a.made a.handles) : fs.flatMap (e.word l) = fs.flatMap (a.engine.word l) :=
  List.flatMap_congr fun f mem => orderly.word_fixed handle (staged f mem) a.engine e

/-- While a listener is yet to be called, only the engine moves. -/
theorem uncalled {m : Move} (allowed : a.Allows m) (other : m ≠ .advance) : a.engine.calling? = none := by
  have silent : a.engine.step? = none ∨ a.engine.running?.isSome := by
    cases m with
    | advance => exact absurd rfl other
    | finish failing => exact .inr allowed
    | _ => exact .inl allowed.1
  rw [Engine.calling?]
  split
  · next frames => simp [Engine.step?, Engine.running?, frames] at silent
  · rfl

/-- A step of the engine is a turn. -/
theorem turn_stepped (orderly : a.Orderly) (handle : (l, .condition c) ∈ a.handles) (stays : l ∉ a.removed)
    (named : c.id? = some i) {e' : Engine} (stepped : a.engine.Stepped e') :
    Turn a { a.withEngine e' with heard := a.heard ++ a.engine.calling?.toList } l c i := by
  have sound := orderly.sound
  have mem := (orderly.known_handle handle).mem named
  -- Only the first frames and what is known of readings differ; what the other frames say is fixed.
  have quiet : ∀ {e' : Engine}, (∀ r, a.engine.calling? ≠ some (l, r)) → (∀ f ∈ e'.frames, f.Staged a.made a.handles) →
      e'.frames.flatMap (a.engine.word l) = a.owed l → (e'.cell i).baseline = (a.engine.cell i).baseline →
      Turn a { a.withEngine e' with heard := a.heard ++ a.engine.calling?.toList } l c i := by
    intro e' uncalled staged words baseline
    refine .none (heardBy_uncalled uncalled) ?_ baseline uncalled
    exact (orderly.words_fixed handle e' staged).trans words
  have staged : ∀ f ∈ e'.frames, f.Staged a.made a.handles := fun f framed => (orderly.sound_stepped stepped f framed).1
  cases stepped with
  | @refreshed rest frames =>
    refine quiet (uncalled_of_silent (Engine.calling?_of_refresh frames)) staged ?_ rfl
    rw [owed, frames]
    rfl
  | @stale m now pending rest frames other =>
    refine quiet (uncalled_of_silent (Engine.calling?_of_refresh frames)) staged ?_ rfl
    rw [owed, frames]
    rfl
  | @told m now pending rest frames same =>
    rw [frames, List.forall_mem_cons] at sound
    have listed : .list m ∈ a.made := sound.1.1.2 (m, now) List.mem_cons_self
    refine quiet (uncalled_of_silent (Engine.calling?_of_refresh frames)) staged ?_ rfl
    rw [owed, frames, List.flatMap_cons, orderly.silent_listeners handle listed rfl (by simp)]
    rfl
  | @dispatched source event failed rest frames =>
    refine quiet (uncalled_of_silent (Engine.calling?_of_told frames)) staged ?_ rfl
    rw [owed, frames, List.flatMap_cons, Engine.word_eq_nil List.not_mem_nil]
    rfl
  | @called source event h pending failed rest frames =>
    rw [frames, List.forall_mem_cons] at sound
    obtain ⟨⟨⟨r, rfl⟩, -, once, -, clients⟩, -⟩ := sound.1
    have calling := Engine.calling?_of_client frames
    by_cases mine : h = l
    · subst mine
      obtain rfl := orderly.handle_unique handle (clients h List.mem_cons_self)
      have absent : (h, .client) ∉ pending := fun again =>
        (List.nodup_cons.mp once).1 (List.mem_map.mpr ⟨_, again, rfl⟩)
      have older : Audience.owed { a.withEngine { a.engine with
          frames := .call h (.condition c) (.changed r) ::
            .dispatch (.condition c) (.changed r) pending failed :: rest } with
          heard := a.heard ++ a.engine.calling?.toList } h = rest.flatMap (a.engine.word h) := by
        refine (orderly.words_fixed handle _ staged).trans ?_
        rw [List.flatMap_cons, List.flatMap_cons, Engine.word_eq_nil absent]
        rfl
      refine .called calling ?_ ?_ ?_ rfl
      · simp [heardBy, calling]
      · rw [older, owed, frames, List.flatMap_cons, Engine.word_eq_given List.mem_cons_self]
        rfl
      · rw [older, frames, List.tail_cons]
    · refine quiet (fun _ called => ?_) staged ?_ rfl
      · rw [calling] at called
        exact mine (Prod.mk.inj (Option.some.inj called)).1
      · rw [owed, frames, List.flatMap_cons, List.flatMap_cons, List.flatMap_cons, Engine.word_cons_other mine]
        rfl
  | @passed source y event h pending failed rest frames idle =>
    refine quiet (uncalled_of_silent (Engine.calling?_of_relay frames)) staged ?_ rfl
    rw [owed, frames, List.flatMap_cons, List.flatMap_cons, Engine.word_cons_relay]
  | @reacted source s event h pending failed rest k frames sid alive due =>
    rw [frames, List.forall_mem_cons] at sound
    obtain ⟨smem, -⟩ := sound.1.1.2.2.2.1 h s List.mem_cons_self
    have uncalled : ∀ r, a.engine.calling? ≠ some (l, r) := uncalled_of_silent (Engine.calling?_of_relay frames)
    by_cases mine : Observable.condition c = s
    · subst mine
      obtain rfl : i = k := Option.some.inj (named.symm.trans sid)
      have registered := (orderly.inForce l _ handle i named).resolve_left stays
      refine .changed (heardBy_uncalled uncalled) ?_ ?_ ((Engine.due_of_id sid).mp due).symm uncalled
      · refine (orderly.words_fixed handle _ staged).trans ?_
        rw [owed, frames, List.flatMap_cons, Engine.word_eq_given registered, List.flatMap_cons, List.flatMap_cons,
          Engine.word_cons_relay]
        rfl
      · exact congrArg Cell.baseline (informed_self a (.condition c) i)
    · refine quiet uncalled staged ?_ ?_
      · rw [owed, frames, List.flatMap_cons, orderly.silent_listeners handle smem sid mine, List.flatMap_cons,
          List.flatMap_cons, Engine.word_cons_relay]
        rfl
      · exact congrArg Cell.baseline (orderly.cell_informed smem sid mem named mine)

/-- Every move is a turn for a listener that stays. -/
theorem turn (orderly : a.Orderly) (handle : (l, .condition c) ∈ a.handles) (stays : l ∉ a.removed)
    (named : c.id? = some i) {m : Move} (allowed : a.Allows m) : Turn a (a.act m) l c i := by
  by_cases advances : m = .advance
  · subst advances
    obtain ⟨e', step⟩ := Option.isSome_iff_exists.mp allowed
    have advanced : a.act .advance = { a.withEngine e' with heard := a.heard ++ a.engine.calling?.toList } := by
      rw [Audience.act, Audience.advance, step]
    rw [advanced]
    exact orderly.turn_stepped handle stays named (Engine.stepped step)
  have uncalled : ∀ r, a.engine.calling? ≠ some (l, r) := uncalled_of_silent (uncalled allowed advances)
  have mem := (orderly.known_handle handle).mem named
  have listened : (a.engine.cell i).listeners ≠ [] :=
    List.ne_nil_of_mem ((orderly.inForce l _ handle i named).resolve_left stays)
  have same : ∀ {e' : Engine}, e'.frames = a.engine.frames → e'.frames.flatMap (e'.word l) = a.owed l := by
    intro e' frames
    rw [frames]
    exact orderly.words_fixed handle e' orderly.frames
  have acted := orderly.acted allowed
  generalize a.act m = a' at acted
  cases acted with
  | gained making =>
    exact .none rfl (same making.frames) (orderly.baseline_gain making mem named) uncalled
  | uncached => exact .none rfl (same rfl) rfl uncalled
  | configured => exact .none rfl (same rfl) rfl uncalled
  | kept usable => exact .none rfl (same rfl) rfl uncalled
  | @listened x usable =>
    have subscribed := orderly.subscribed (known_of_usable usable)
    have other : (a.engine.subscribe x .client).1 ≠ l := by
      rw [subscribed.listener_eq]
      exact (Nat.ne_of_lt (orderly.issued l _ handle).1).symm
    refine .none ?_ (same subscribed.joined.stage.frames) (subscribed.joined.kept i listened).2 uncalled
    show ((a.heard ++ [((a.engine.subscribe x .client).1, _)]).filter _).map _ = _
    rw [List.filter_append, List.filter_singleton, beq_false_of_ne other]
    simp [heardBy]
  | left usable left =>
    have parted := (orderly.unsubscribed (known_of_usable usable) left).parted
    exact .none rfl (same parted.stage.frames) (parted.baseline i) uncalled
  | @set features =>
    refine .none rfl ?_ (orderly.baseline_update features mem named rfl) uncalled
    rw [owed, frames_update, List.flatMap_cons]
    exact orderly.words_fixed handle _ orderly.frames
  | @ended failing e' finished =>
    have staged : ∀ f ∈ e'.frames, f.Staged a.made a.handles :=
      fun f framed => (orderly.sound_finished finished f framed).1
    cases finished with
    | @returned listener source source' event event' pending failed rest frames =>
      refine .none rfl ((orderly.words_fixed handle _ staged).trans ?_) rfl uncalled
      rw [owed, frames, List.flatMap_cons, List.flatMap_cons, List.flatMap_cons]
      cases event' <;> rfl
    | ended frames =>
      refine .none rfl ((orderly.words_fixed handle _ staged).trans ?_) rfl uncalled
      rw [owed, frames, List.flatMap_cons]
      rfl
  | stepped stepped => exact absurd rfl advances

end Orderly

/-! ## Truth values in turn -/

/-- In a sequence in which each value differs from the one before, the last one depends on the length only. -/
theorem getLast?_alternating {first : Bool} {told : List Bool} (chain : (first :: told).IsChain (· ≠ ·)) :
    (first :: told).getLast? = some (first ^^ told.length.bodd) := by
  induction told generalizing first with
  | nil => simp
  | cons next rest ih =>
    obtain ⟨other, later⟩ := List.isChain_cons_cons.mp chain
    obtain rfl : next = !first := Bool.eq_not.mpr (Ne.symm other)
    rw [List.getLast?_cons_cons, ih later, List.length_cons, Nat.bodd_succ]
    cases first <;> simp

/-- One more value alternates with the others exactly if the number of the others calls for it. -/
theorem isChain_concat {first v : Bool} {told : List Bool} :
    (first :: (told ++ [v])).IsChain (· ≠ ·) ↔
      (first :: told).IsChain (· ≠ ·) ∧ v = !(first ^^ told.length.bodd) := by
  rw [← List.cons_append, List.isChain_append]
  refine and_congr_right fun chain => ?_
  rw [getLast?_alternating chain]
  cases v <;> cases first ^^ told.length.bodd <;> simp

private theorem odd_iff_bodd (n : Nat) : Odd n ↔ n.bodd = true := by
  rw [Nat.odd_iff, Nat.mod_two_of_bodd]
  cases n.bodd <;> simp

private theorem differs_iff (v first late told older : Bool) :
    v = (!(first ^^ told)) ↔ (¬ v = (first ^^ (late ^^ (told ^^ !older))) ↔ (older ^^ late) = true) := by
  decide +revert

/-- What a listener of a condition was told and is owed, and what the condition knows of, which has changed as often. -/
structure Paced (a : Audience) (l : ListenerId) (i : NodeId) (first late : Bool) (told pending : List Bool) : Prop where
  heard : a.heardBy l = (first :: told).map Reading.truth
  owed : a.owed l = pending.map Reading.truth
  known : (a.engine.cell i).baseline = .truth (first ^^ (late ^^ (told.length + pending.length).bodd))

/-- If a listener is called now, the value is outdated exactly if an odd number of dispatches further down the stack
are still to call it, where a registration that came late counts as one more. -/
def InStep (l : ListenerId) (i : NodeId) (late : Bool) (a : Audience) (_ : Move) : Prop :=
  ∀ r, a.engine.calling? = some (l, r) →
    (r ≠ (a.engine.cell i).baseline ↔ Odd ((a.engine.frames.tail.flatMap (a.engine.word l)).length + late.toNat))

variable {a a' b : Audience} {l : ListenerId} {c : Condition} {i : NodeId} {first late : Bool}
  {told pending : List Bool}

private theorem inStep_of_uncalled (uncalled : ∀ r, a.engine.calling? ≠ some (l, r)) (m : Move) : InStep l i late a m :=
  fun r calling => absurd calling (uncalled r)

private theorem inStep_iff {r : Reading} (calling : a.engine.calling? = some (l, r)) (m : Move) :
    InStep l i late a m ↔ (r ≠ (a.engine.cell i).baseline ↔
      Odd ((a.engine.frames.tail.flatMap (a.engine.word l)).length + late.toNat)) := by
  refine ⟨fun inStep => inStep r calling, fun here r' again => ?_⟩
  obtain rfl := (Prod.mk.inj (Option.some.inj (again.symm.trans calling))).2
  exact here

/-- A turn keeps the pace, and what the listener is told alternates afterwards exactly if it did before and the turn
was in step. -/
theorem Turn.paced (turn : Turn a a' l c i) (paced : Paced a l i first late told pending) (m : Move) :
    ∃ told' pending', Paced a' l i first late told' pending' ∧
      ((first :: told').IsChain (· ≠ ·) ↔ (first :: told).IsChain (· ≠ ·) ∧ InStep l i late a m) := by
  cases turn with
  | none heard owed baseline uncalled =>
    refine ⟨told, pending, ⟨heard.trans paced.heard, owed.trans paced.owed, baseline.trans paced.known⟩, ?_⟩
    exact (and_iff_left (inStep_of_uncalled uncalled m)).symm
  | changed heard owed baseline due uncalled =>
    refine ⟨told, c.holds a.watcher.view :: pending, ⟨heard.trans paced.heard, ?_, ?_⟩, ?_⟩
    · rw [owed, paced.owed]
      rfl
    · have other :
          .truth (first ^^ (late ^^ (told.length + pending.length).bodd)) ≠ Reading.truth (c.holds a.watcher.view) :=
        paced.known ▸ due
      refine baseline.trans (congrArg Reading.truth ?_)
      rw [List.length_cons, ← Nat.add_assoc, Nat.bodd_succ, Bool.xor_not, Bool.xor_not]
      exact Bool.eq_not.mpr fun same => other (congrArg _ same.symm)
    · exact (and_iff_left (inStep_of_uncalled uncalled m)).symm
  | @called r calling heard owed older baseline =>
    obtain ⟨v, rest, rfl, rfl, same⟩ : ∃ v rest, pending = v :: rest ∧ r = .truth v ∧ a'.owed l = rest.map .truth := by
      have next := owed.symm.trans paced.owed
      cases pending with
      | nil => contradiction
      | cons v rest => exact ⟨v, rest, rfl, (List.cons.inj next).1, (List.cons.inj next).2⟩
    refine ⟨told ++ [v], rest, ⟨?_, same, ?_⟩, ?_⟩
    · rw [heard, paced.heard]
      simp
    · rw [baseline, paced.known]
      simp [Nat.add_right_comm, Nat.add_assoc]
    · rw [isChain_concat]
      refine and_congr_right fun _ => ?_
      have lateness : late.toNat.bodd = late := by cases late <;> rfl
      rw [inStep_iff calling, paced.known, ← older, same, List.length_map, odd_iff_bodd,
        Nat.bodd_add, List.length_cons, Nat.bodd_succ, Nat.bodd_add, lateness, Ne, Reading.truth.injEq]
      exact differs_iff v first late told.length.bodd rest.length.bodd

/-- What is known of conditions that are listened to are truth values, and only clients that asked for it were told
anything. -/
structure Tidy (a : Audience) : Prop where
  truths : ∀ c i, .condition c ∈ a.made → c.id? = some i → (a.engine.cell i).listeners ≠ [] →
    ∃ v, (a.engine.cell i).baseline = .truth v
  heard : ∀ entry ∈ a.heard, ∃ o, (entry.1, o) ∈ a.handles

namespace Orderly

/-- Whoever is called next asked for it. -/
theorem handle_of_calling (orderly : a.Orderly) {h : ListenerId} {r : Reading}
    (calling : a.engine.calling? = some (h, r)) : ∃ o, (h, o) ∈ a.handles := by
  have staged := orderly.frames
  rw [Engine.calling?] at calling
  split at calling
  · next source reading listener pending failed rest frames =>
    obtain rfl := (Prod.mk.inj (Option.some.inj calling)).1
    rw [frames, List.forall_mem_cons] at staged
    exact ⟨source, staged.1.2.2.2.2 _ List.mem_cons_self⟩
  · contradiction

private theorem tidy_act (orderly : a.Orderly) (tidy : a.Tidy) {m : Move} (acted : a.Acted m a') : a'.Tidy := by
  cases acted with
  | @gained m o w making =>
    refine ⟨fun c i mem named listened => ?_, tidy.heard⟩
    rw [making.listeners] at listened
    have old : .condition c ∈ a.made := (List.mem_append.mp mem).resolve_right fun new =>
      listened (orderly.unused (making.newNode new named))
    rw [orderly.baseline_gain making old named]
    exact tidy.truths c i old named listened
  | uncached => exact ⟨tidy.truths, tidy.heard⟩
  | configured => exact ⟨tidy.truths, tidy.heard⟩
  | kept usable => exact ⟨tidy.truths, tidy.heard⟩
  | @listened x usable =>
    have joined := (orderly.subscribed (known_of_usable usable)).joined
    refine ⟨fun c i mem named listened => ?_, fun entry mem => ?_⟩
    · by_cases silent : (a.engine.cell i).listeners = []
      · exact ⟨_, joined.fresh _ mem i named silent listened⟩
      · obtain ⟨v, known⟩ := tidy.truths c i mem named silent
        exact ⟨v, (joined.kept i silent).2.trans known⟩
    · rcases List.mem_append.mp mem with old | new
      · obtain ⟨o, handle⟩ := tidy.heard entry old
        exact ⟨o, List.mem_cons_of_mem _ handle⟩
      · obtain rfl := List.mem_singleton.mp new
        exact ⟨x, List.mem_cons_self⟩
  | left usable left =>
    have parted := (orderly.unsubscribed (known_of_usable usable) left).parted
    refine ⟨fun c i mem named listened => ?_, tidy.heard⟩
    obtain ⟨v, known⟩ := tidy.truths c i mem named (parted.listened listened)
    exact ⟨v, (parted.baseline i).trans known⟩
  | @set features =>
    refine ⟨fun c i mem named listened => ?_, tidy.heard⟩
    rw [orderly.baseline_update features mem named rfl]
    exact tidy.truths c i mem named ((Engine.cell_noteValues { a.engine with features } _ i).1 ▸ listened)
  | ended finished => cases finished <;> exact ⟨tidy.truths, tidy.heard⟩
  | @stepped e' stepped =>
    have heard : ∀ entry ∈ a.heard ++ a.engine.calling?.toList, ∃ o, (entry.1, o) ∈ a.handles := by
      intro entry mem
      rcases List.mem_append.mp mem with old | new
      · exact tidy.heard entry old
      · exact orderly.handle_of_calling (Option.mem_toList.mp new)
    cases stepped with
    | @reacted source s event h pending failed rest k frames named alive due =>
      refine ⟨fun c i mem cid listened => ?_, heard⟩
      have staged := orderly.frames
      rw [frames, List.forall_mem_cons] at staged
      obtain ⟨smem, -⟩ := staged.1.2.2.2.1 h s List.mem_cons_self
      show ∃ v, ((a.informed s k).cell i).baseline = .truth v
      by_cases mine : Observable.condition c = s
      · subst mine
        obtain rfl : i = k := Option.some.inj (cid.symm.trans named)
        exact ⟨_, congrArg Cell.baseline (informed_self a (.condition c) i)⟩
      · have same := orderly.cell_informed smem named mem cid mine
        rw [same]
        exact tidy.truths c i mem cid (same ▸ listened)
    | refreshed => exact ⟨tidy.truths, heard⟩
    | stale => exact ⟨tidy.truths, heard⟩
    | told => exact ⟨tidy.truths, heard⟩
    | dispatched => exact ⟨tidy.truths, heard⟩
    | called => exact ⟨tidy.truths, heard⟩
    | passed => exact ⟨tidy.truths, heard⟩

/-- At first a listener was told the reading it began with, and nothing under way knows of it. The registration comes
late if the condition has listeners already, who do not know of its present reading yet. -/
theorem paced_listen (orderly : a.Orderly) (tidy : a.Tidy) (usable : a.Usable (.condition c)) (named : c.id? = some i) :
    Paced (a.listen (.condition c)) (a.engine.subscribe (.condition c) .client).1 i (c.holds a.watcher.view)
      ((a.listen (.condition c)).engine.due (.condition c)) [] [] := by
  have subscribed := orderly.subscribed (known_of_usable usable)
  have asked : (a.engine.subscribe (.condition c) .client).1 = a.engine.nextListener := subscribed.listener_eq
  have new : ∀ o, ((a.engine.subscribe (.condition c) .client).1, o) ∉ a.handles := by
    intro o handle
    rw [asked] at handle
    exact absurd (orderly.issued _ o handle).1 (Nat.lt_irrefl _)
  have reading : (a.listen (.condition c)).engine.reading (.condition c) = .truth (c.holds a.watcher.view) :=
    subscribed.joined.stage.reading orderly.connected _
  refine ⟨?_, ?_, ?_⟩
  · have unheard : a.heardBy (a.engine.subscribe (.condition c) .client).1 = [] := by
      refine List.map_eq_nil_iff.mpr (List.filter_eq_nil_iff.mpr fun entry mem hit => ?_)
      obtain ⟨o, handle⟩ := tidy.heard entry mem
      exact new o (beq_iff_eq.mp hit ▸ handle)
    show ((a.heard ++ [((a.engine.subscribe (.condition c) .client).1, _)]).filter _).map _ = _
    rw [List.filter_append, List.map_append]
    refine (congrArg (· ++ _) unheard).trans ?_
    simp [Engine.reading, Observable.reading, engine, Watcher.view]
  · refine List.flatMap_eq_nil_iff.mpr fun f mem => ?_
    have framed : f ∈ a.engine.frames := subscribed.joined.stage.frames ▸ mem
    have staged := orderly.frames f framed
    cases f with
    | refresh pending => rfl
    | call listener source event => rfl
    | dispatch source event pending failed =>
      exact Engine.word_eq_nil fun client => new source (staged.2.2.2.2 _ client)
  · have acted : a.Acted (.listen (.condition c)) (a.listen (.condition c)) := .listened usable
    obtain ⟨v, known⟩ := (orderly.tidy_act tidy acted).truths c i ((known_of_usable usable).mem named) named
      (List.ne_nil_of_mem (subscribed.mem i named))
    rw [known]
    refine congrArg Reading.truth ?_
    have due := Engine.due_of_id (e := (a.listen (.condition c)).engine) (o := .condition c) named
    rw [reading, known, Ne, Reading.truth.injEq] at due
    cases late : (a.listen (.condition c)).engine.due (.condition c) with
    | false => simpa [late, eq_comm] using due
    | true => simpa [late, eq_comm] using Bool.eq_not.mpr (due.mp late)

end Orderly

private theorem tidy_start (features : Media.Features) (registry : Registry) : (start features registry).Tidy :=
  ⟨nofun, nofun⟩

private theorem Run.tidy {sort : Audience → Move → Prop} {ms : List Move} (run : Run sort a ms b)
    (orderly : a.Orderly) (tidy : a.Tidy) : b.Orderly ∧ b.Tidy :=
  have step : ∀ a m, a.Orderly ∧ a.Tidy → a.Allows m → sort a m → (a.act m).Orderly ∧ (a.act m).Tidy :=
    fun _ _ before allowed _ => ⟨before.1.act allowed, before.1.tidy_act before.2 (before.1.acted allowed)⟩
  run.invariant step ⟨orderly, tidy⟩

theorem Run.cons_iff {sort : Audience → Move → Prop} {m : Move} {ms : List Move} (allowed : a.Allows m) :
    Run sort a (m :: ms) b ↔ sort a m ∧ Run sort (a.act m) ms b :=
  ⟨fun | .cons _ sorted rest => ⟨sorted, rest⟩, fun ⟨sorted, rest⟩ => .cons allowed sorted rest⟩

/-- Over a whole history, what a listener that stays is told alternates exactly if it did so far and every call is in
step. -/
theorem Run.paced {ms : List Move} (run : Run Free a ms b) (orderly : a.Orderly)
    (handle : (l, .condition c) ∈ a.handles)
    (stays : l ∉ b.removed) (named : c.id? = some i) (paced : Paced a l i first late told pending) :
    ∃ told' pending', Paced b l i first late told' pending' ∧
      ((first :: told').IsChain (· ≠ ·) ↔ (first :: told).IsChain (· ≠ ·) ∧ Run (InStep l i late) a ms b) := by
  induction run generalizing told pending with
  | nil a => exact ⟨told, pending, paced, (and_iff_left (.nil a)).symm⟩
  | @cons a b m ms allowed free rest ih =>
    have staysNow : l ∉ a.removed := fun gone => stays ((Run.cons allowed free rest).removed orderly gone)
    obtain ⟨toldNext, pendingNext, pacedNext, here⟩ := (orderly.turn handle staysNow named allowed).paced paced m
    obtain ⟨told', pending', paced', later⟩ :=
      ih (orderly.act allowed) ((orderly.acted allowed).handles handle) stays pacedNext
    refine ⟨told', pending', paced', ?_⟩
    rw [later, here, and_assoc, Run.cons_iff allowed]

/-- After any history, what a registration begins with. -/
theorem Run.registered {features : Media.Features} {registry : Registry} {ms : List Move}
    (reached : Run Free (start features registry) ms a) (named : c.id? = some i)
    (allowed : a.Allows (.listen (.condition c)))
    (asked : (a.engine.subscribe (.condition c) .client).1 = l) :
    (a.act (.listen (.condition c))).Orderly ∧ (l, .condition c) ∈ (a.act (.listen (.condition c))).handles ∧
      Paced (a.act (.listen (.condition c))) l i (c.holds a.watcher.view)
        ((a.act (.listen (.condition c))).engine.due (.condition c)) [] [] := by
  obtain ⟨orderly, tidy⟩ := reached.tidy (orderly_start features registry) (tidy_start features registry)
  refine ⟨orderly.act allowed, ?_, asked ▸ orderly.paced_listen tidy allowed.2 named⟩
  rw [handles_listen, asked]
  exact List.mem_cons_self

/-- From a registration on, what the listener is told alternates exactly if every call is in step. -/
theorem Run.alternates {ns : List Move} (run : Run Free a ns b) (orderly : a.Orderly)
    (handle : (l, .condition c) ∈ a.handles)
    (stays : l ∉ b.removed) (named : c.id? = some i) (began : Paced a l i first late [] []) :
    (b.heardBy l).head? = some (.truth first) ∧ ((b.heardBy l).IsChain (· ≠ ·) ↔ Run (InStep l i late) a ns b) := by
  obtain ⟨told, pending, paced, alternates⟩ := run.paced orderly handle stays named began
  have single : [first].IsChain (· ≠ ·) := List.isChain_singleton _
  have values : (fun v w : Bool => Reading.truth v ≠ Reading.truth w) = (· ≠ ·) := by
    funext v w
    rw [Ne, Reading.truth.injEq]
  rw [paced.heard, List.isChain_map, values]
  exact ⟨rfl, alternates.trans (and_iff_right single)⟩

/-- Whatever listeners do, also when they change the environment, what a listener of a condition that stays is told
begins with the reading at its registration, and each value differs from the one before exactly if at every call of
the listener the value is outdated precisely when an odd number of dispatches further down the stack are still to
call it, where a registration that came late counts as one more. -/
theorem Run.alternates_iff {features : Media.Features} {registry : Registry} {ms ns : List Move}
    (reached : Run Free (start features registry) ms a) (named : c.id? = some i)
    (allowed : a.Allows (.listen (.condition c)))
    (asked : (a.engine.subscribe (.condition c) .client).1 = l) (after : Run Free (a.act (.listen (.condition c))) ns b)
    (stays : l ∉ b.removed) :
    (b.heardBy l).head? = some (.truth (c.holds a.watcher.view)) ∧
      ((b.heardBy l).IsChain (· ≠ ·) ↔
        Run (InStep l i ((a.act (.listen (.condition c))).engine.due (.condition c)))
          (a.act (.listen (.condition c))) ns b) := by
  obtain ⟨orderly, handle, began⟩ := reached.registered named allowed asked
  exact after.alternates orderly handle stays named began

theorem Run.alternates_iff_leaflet :
    leafletTold.heardBy 0 = [.truth true, .truth false] ∧
      Run (InStep 0 0 false) leafletHeard (.update terminal :: leafletMoves) leafletTold := by
  have named : leaflet.id? = some 0 := by decide +kernel
  have asked : (leafletMade.engine.subscribe (.condition leaflet) .client).1 = 0 := by decide +kernel
  have silent : leafletMade.engine.step? = none := Option.isNone_iff_eq_none.mp (by decide +kernel)
  have changing : leafletHeard.ready (.update terminal) := by decide +kernel
  have after : leafletTold.heardBy 0 = [.truth true, .truth false] ∧ 0 ∉ leafletTold.removed := by decide +kernel
  have timely : (leafletMade.act (.listen (.condition leaflet))).engine.due (.condition leaflet) = false := by
    decide +kernel
  have made : Run Free (start {} .standard) [.compile "screen, print".toList] leafletMade :=
    .single (allows_of_ready rfl) trivial
  have allowed : leafletMade.Allows (.listen (.condition leaflet)) :=
    ⟨silent, (made.orderly (orderly_start _ _)).usable_of_kept List.mem_cons_self⟩
  have told : Run Free leafletHeard (.update terminal :: leafletMoves) leafletTold :=
    .cons (allows_of_ready changing) trivial leaflet_told.free
  have alternates := (Run.alternates_iff made named allowed asked told after.2).2
  rw [timely, after.1] at alternates
  exact ⟨after.1, alternates.mp (by decide)⟩

/-- A leaf for paper. -/
def flyer : Condition := ((start {} .standard).watcher.compile "print".toList).1

def flyerHeard : Audience := ((start {} .standard).act (.compile "print".toList)).act (.listen (.condition flyer))

/-- The environment is made paper. The first listener of the leaf, when it is told, undoes that at once, so both
listeners are told that it is not paper before the second one is told that it is. -/
def flyerMoves : List Move :=
  [.update { mediaType := "print".toList }, .advance, .advance, .advance, .update {}, .advance, .advance, .advance,
    .finish false, .advance, .finish false, .advance, .advance, .advance, .finish false, .advance, .finish false,
    .advance, .advance, .advance]

/-- Everything has come to rest, and the second listener was told the same twice. -/
def flyerTold : Audience := flyerMoves.foldl act (flyerHeard.act (.listen (.condition flyer)))

theorem alternation_lost : ¬ ∀ (features : Media.Features) (registry : Registry) (ms ns : List Move) (a b : Audience)
    (c : Condition) (i : NodeId) (l : ListenerId), Run Free (start features registry) ms a → c.id? = some i →
    a.Allows (.listen (.condition c)) → (a.engine.subscribe (.condition c) .client).1 = l →
    Run Free (a.act (.listen (.condition c))) ns b → l ∉ b.removed → (b.heardBy l).IsChain (· ≠ ·) := by
  intro alternating
  have named : flyer.id? = some 3 := by decide +kernel
  have asked : (flyerHeard.engine.subscribe (.condition flyer) .client).1 = 2 := by decide +kernel
  have silent : flyerHeard.engine.step? = none := Option.isNone_iff_eq_none.mp (by decide +kernel)
  have after : flyerTold.heardBy 2 = [.truth false, .truth false, .truth true] ∧ 2 ∉ flyerTold.removed := by
    decide +kernel
  have reached : Run Free (start {} .standard) [.compile "print".toList, .listen (.condition flyer)] flyerHeard :=
    .compile_listen (by decide +kernel) fun _ _ _ => trivial
  have kept : .condition flyer ∈ flyerHeard.kept := List.mem_cons_self
  have allowed : flyerHeard.Allows (.listen (.condition flyer)) :=
    ⟨silent, (reached.orderly (orderly_start _ _)).usable_of_kept kept⟩
  have told : Run Free (flyerHeard.act (.listen (.condition flyer))) flyerMoves flyerTold :=
    .of_plays (by decide +kernel) fun _ _ _ => trivial
  have alternates := alternating _ _ _ _ _ _ _ _ _ reached named allowed asked told after.2
  rw [after.1] at alternates
  exact absurd alternates (by decide)

/-! ## Listeners that wait -/

/-- The environment is changed only while nothing under way is to call the listener. -/
def Patient (l : ListenerId) (a : Audience) (m : Move) : Prop := ∀ features, m = .update features → a.owed l = []

/-- If the listener is to be called, then once, with what the condition knows of, which is its present reading. -/
def UpToDate (a : Audience) (l : ListenerId) (c : Condition) (i : NodeId) : Prop :=
  a.owed l ≠ [] → a.owed l = [(a.engine.cell i).baseline] ∧ a.engine.due (.condition c) = false

namespace Orderly

/-- Between such changes of the environment a condition changes once at most, so every call is in step. -/
theorem upToDate_act (orderly : a.Orderly) (handle : (l, .condition c) ∈ a.handles) (stays : l ∉ a.removed)
    (named : c.id? = some i) {m : Move} (allowed : a.Allows m) (patient : Patient l a m) (upToDate : a.UpToDate l c i) :
    (a.act m).UpToDate l c i ∧ InStep l i false a m := by
  by_cases still : a.Still m
  · have acted := orderly.acted allowed
    have turn := orderly.turn handle stays named allowed
    generalize a.act m = a' at acted turn
    have reading := orderly.reading_act acted still
    have dueOf : (a'.engine.cell i).baseline = (a.engine.cell i).baseline →
        a'.engine.due (.condition c) = a.engine.due (.condition c) := fun baseline =>
      Engine.due_congr reading fun j same => by
        obtain rfl : i = j := Option.some.inj (named.symm.trans same)
        exact baseline
    cases turn with
    | none heard owed baseline uncalled =>
      refine ⟨fun owes => ?_, inStep_of_uncalled uncalled m⟩
      rw [owed, baseline, dueOf baseline]
      exact upToDate (owed ▸ owes)
    | changed heard owed baseline due uncalled =>
      refine ⟨fun _ => ⟨?_, ?_⟩, inStep_of_uncalled uncalled m⟩
      · have nothing : a.owed l = [] := by
          by_contra owes
          have fresh := (upToDate owes).2
          rw [(Engine.due_of_id (o := .condition c) named).mpr due.symm] at fresh
          contradiction
        rw [owed, nothing, baseline]
      · rw [← Bool.not_eq_true, Engine.due_of_id (o := .condition c) named, reading, baseline]
        exact not_not_intro rfl
    | @called r calling heard owed older baseline =>
      have once := (upToDate (owed ▸ List.cons_ne_nil _ _)).1
      obtain ⟨same, nothing⟩ := List.cons.inj (owed.symm.trans once)
      refine ⟨fun owes => absurd nothing owes, (inStep_iff calling m).mpr ?_⟩
      rw [← older, nothing, same]
      simp
  · obtain ⟨features, rfl⟩ : ∃ features, m = .update features := by simpa [Still] using still
    have nothing := patient features rfl
    refine ⟨fun owes => absurd ?_ owes, inStep_of_uncalled (uncalled_of_silent (uncalled allowed (by simp))) _⟩
    rw [owed, frames_update, List.flatMap_cons]
    exact (orderly.words_fixed handle _ orderly.frames).trans nothing

end Orderly

private theorem Run.inStep {ns : List Move} (run : Run (Patient l) a ns b) (orderly : a.Orderly)
    (handle : (l, .condition c) ∈ a.handles) (stays : l ∉ b.removed) (named : c.id? = some i)
    (upToDate : a.UpToDate l c i) : Run (InStep l i false) a ns b := by
  induction run with
  | nil a => exact .nil a
  | @cons a b m ms allowed patient rest ih =>
    have staysNow : l ∉ a.removed := fun gone => stays ((Run.cons allowed patient rest).removed orderly gone)
    obtain ⟨next, inStep⟩ := orderly.upToDate_act handle staysNow named allowed patient upToDate
    exact .cons allowed inStep (ih (orderly.act allowed) ((orderly.acted allowed).handles handle) stays next)

/-- If the environment is changed only while nothing under way is to call a listener that came in time, what the
listener is told alternates. -/
theorem Run.alternates_of_patient {features : Media.Features} {registry : Registry} {ms ns : List Move}
    (reached : Run Free (start features registry) ms a) (named : c.id? = some i)
    (allowed : a.Allows (.listen (.condition c)))
    (asked : (a.engine.subscribe (.condition c) .client).1 = l)
    (after : Run (Patient l) (a.act (.listen (.condition c))) ns b)
    (stays : l ∉ b.removed) (timely : (a.act (.listen (.condition c))).engine.due (.condition c) = false) :
    (b.heardBy l).IsChain (· ≠ ·) := by
  obtain ⟨orderly, handle, began⟩ := reached.registered named allowed asked
  rw [timely] at began
  exact (after.free.alternates orderly handle stays named began).2.mpr
    (after.inStep orderly handle stays named fun owes => absurd began.owed owes)

end Audience

end MediaWatch
