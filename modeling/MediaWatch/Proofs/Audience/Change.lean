import MediaWatch.Proofs.Audience.Rest

/-! # A change of the environment is told once

When listeners leave the environment alone, nobody is left with an old reading: whenever the listeners of a
live composite know of a reading that it does not have any more, something under way will tell them. At
rest, then, everybody knows the present reading, and a change of the environment puts exactly the new
readings in prospect, each once.
-/

namespace MediaWatch

namespace Audience

/-- If a live observable has listeners that know of an old reading, they are about to be told. -/
def Heeds (a : Audience) (o : Observable) : Prop :=
  ∀ i, o.id? = some i → a.Usable o → (a.engine.cell i).listeners ≠ [] → a.engine.due o →
    ∃ f ∈ a.engine.frames, a.engine.stirs f o

/-- The listeners of a live composite that know of an old reading are about to be told. -/
def Heedful (a : Audience) : Prop :=
  ∀ o i, o.id? = some i → o.isPlain = false → a.Usable o → (a.engine.cell i).listeners ≠ [] → a.engine.due o →
    ∃ f ∈ a.engine.frames, a.engine.stirs f o

theorem Heedful.heeds {a : Audience} {o : Observable} (heedful : a.Heedful) (whole : o.isPlain = false) : a.Heeds o :=
  fun i named => heedful o i named whole

namespace Orderly

variable {a a' : Audience} {o : Observable}

/-- Nothing that is due gets lost while frames and readings stay what they are and no node is newly listened to. -/
theorem heeds_undisturbed (orderly : a.Orderly) (heeds : a.Heeds o) {m : Move} (acted : a.Acted m a')
    (frames : a'.engine.frames = a.engine.frames) (readings : ∀ x, a'.engine.reading x = a.engine.reading x)
    (listened : ∀ i, o.id? = some i → a'.Usable o → (a'.engine.cell i).listeners ≠ [] →
      a'.engine.due o → o ∈ a.made ∧ (a.engine.cell i).listeners ≠ [])
    (baseline : ∀ o ∈ a.made, ∀ i, o.id? = some i → (a.engine.cell i).listeners ≠ [] →
      (a'.engine.cell i).baseline = (a.engine.cell i).baseline) : a'.Heeds o := by
  intro i named usable heard due
  obtain ⟨mem, heard⟩ := listened i named usable heard due
  have known : ∀ x ∈ o.nodes, ∀ j, x.id? = some j → (a'.engine.cell j).baseline = (a.engine.cell j).baseline := by
    intro x node j xid
    apply baseline x (orderly.catalogue.mem_of_node (.inl mem) node) j xid
    exact orderly.listened_below mem named heard x node j xid
  rw [Engine.due_congr readings (known o (Observable.mem_nodes_self named))] at due
  obtain ⟨f, mem', stirred⟩ := heeds i named (orderly.usable_acted acted mem usable) heard due
  exact ⟨f, frames ▸ mem', by rw [Engine.stirs_undisturbed readings known]; exact stirred⟩

/-- At rest the listeners of what leaves nobody behind know of the present reading. -/
theorem fresh_of_heeds (heeds : a.Heeds o) (idle : a.Idle) {i : NodeId} (named : o.id? = some i) (usable : a.Usable o)
    (listened : (a.engine.cell i).listeners ≠ []) : (a.engine.cell i).baseline = a.engine.reading o := by
  by_contra stale
  obtain ⟨f, mem, -⟩ := heeds i named usable listened ((Engine.due_of_id named).mpr (Ne.symm stale))
  rw [idle] at mem
  exact absurd mem List.not_mem_nil

/-- At rest the listeners of live composites know of the present readings. -/
theorem fresh_at_rest (heedful : a.Heedful) (idle : a.Idle) {i : NodeId} (named : o.id? = some i)
    (whole : o.isPlain = false) (usable : a.Usable o) (listened : (a.engine.cell i).listeners ≠ []) :
    (a.engine.cell i).baseline = a.engine.reading o :=
  fresh_of_heeds (heedful.heeds whole) idle named usable listened

/-- What live lists say after a change is what the new features say. -/
theorem lastValue_update (orderly : a.Orderly) (features : Media.Features) {m : MediaList} (mem : .list m ∈ a.made)
    (alive : a.engine.alive m.id) :
    (a.act (.update features)).engine.lastValue m = features.satisfy m.descriptor := by
  have alive' : (a.act (.update features)).engine.alive m.id := by
    obtain ⟨r, root, node⟩ := alive_iff.mp alive
    refine alive_iff.mpr ⟨r, ?_, node⟩
    rw [Engine.roots, frames_update, List.flatMap_cons]
    rcases List.mem_append.mp root with mine | framed
    · exact List.mem_append_left _ (owned_update a features ▸ mine)
    · exact List.mem_append_right _ (List.mem_append_right _ framed)
  have value := (orderly.update features).lastValue_eq mem alive'
  rw [features_update] at value
  exact value

/-- A change leaves the reading of a live list what it was if and only if the list keeps its value. -/
theorem reading_update_list (orderly : a.Orderly) (features : Media.Features) {m : MediaList} (mem : .list m ∈ a.made)
    (alive : a.engine.alive m.id) :
    (a.act (.update features)).engine.reading (.list m) = a.engine.reading (.list m) ↔
      features.satisfy m.descriptor = a.engine.lastValue m := by
  have connected : (a.act (.update features)).engine.connected = true := (orderly.update features).connected
  simp only [Engine.reading, Observable.reading, Engine.view, connected, orderly.connected, features_update, ↓reduceIte,
    Reading.truth.injEq, orderly.lastValue_eq mem alive]

/-- Of live lists exactly the new values are announced. -/
theorem announces_update (orderly : a.Orderly) (features : Media.Features) {m : MediaList} (mem : .list m ∈ a.made)
    (alive : a.engine.alive m.id) :
    (a.act (.update features)).engine.announces (.refresh ({ a.engine with features } : Engine).changedLists) m ↔
      features.satisfy m.descriptor ≠ a.engine.lastValue m := by
  rw [Engine.announces, orderly.lastValue_update features mem alive, decide_eq_true_iff, Engine.mem_changedLists]
  exact ⟨fun announced => announced.2.2, fun differs => ⟨⟨(orderly.lists m).mpr mem, alive⟩, rfl, differs⟩⟩

/-- What is known of composites does not change when the environment is set. -/
theorem baseline_update (orderly : a.Orderly) (features : Media.Features) {i : NodeId} (mem : o ∈ a.made)
    (named : o.id? = some i) (whole : o.isPlain = false) :
    ((a.act (.update features)).engine.cell i).baseline = (a.engine.cell i).baseline := by
  refine (Engine.cell_noteValues { a.engine with features } _ i).2.2.1 fun change listed same => ?_
  have listMem := (orderly.sound_refresh features).1.2 change listed
  have eq := orderly.catalogue.eq_of_id listMem mem (by rw [named, ← same]; rfl)
  rw [← eq] at whole
  contradiction

/-- Setting the environment at rest stirs every live list and composite whose reading changes. -/
theorem stirs_of_change (orderly : a.Orderly) (heedful : a.Heedful) (idle : a.Idle) (features : Media.Features)
    (usable : a.Usable o) (listened : ∀ x ∈ o.nodes, ∀ i, x.id? = some i → (a.engine.cell i).listeners ≠ [])
    (changed : (a.act (.update features)).engine.reading o ≠ a.engine.reading o) :
    (a.act (.update features)).engine.stirs (.refresh ({ a.engine with features } : Engine).changedLists) o := by
  induction o using Observable.whole_induction with
  | channel id => exact absurd rfl changed
  | list m =>
    have mem : .list m ∈ a.made := (known_of_usable usable).mem rfl
    have alive : a.engine.alive m.id := usable.alive rfl
    exact (orderly.announces_update features mem alive).mpr fun same =>
      changed ((orderly.reading_update_list features mem alive).mpr same)
  | whole o plain ih =>
    have part : ∃ p ∈ o.parts, (a.act (.update features)).engine.reading p ≠ a.engine.reading p := by
      by_contra none
      push Not at none
      exact changed (Observable.reading_of_parts plain none)
    obtain ⟨p, part, differs⟩ := part
    have inner : ∀ x ∈ p.nodes, x ∈ o.nodes := fun x mem => Observable.mem_nodes.mpr (.inl ⟨p, part, mem⟩)
    have usablePart : a.Usable p := by
      cases pid : p.id? with
      | none => exact .inl pid
      | some j => exact orderly.usable_node usable (inner p (Observable.mem_nodes_self pid))
    have stirred := ih p part usablePart (fun x node => listened x (inner x node)) differs
    refine (Engine.stirs_whole plain).mpr ⟨?_, .inr ⟨p, part, stirred⟩⟩
    cases named : o.id? with
    | none =>
      rw [Observable.parts_of_constant named] at part
      exact absurd part List.not_mem_nil
    | some i =>
      have node := Observable.mem_nodes_self named
      have mem := (known_of_usable usable).mem named
      rw [Engine.due_of_id named, orderly.baseline_update features mem named plain,
        fresh_at_rest heedful idle named plain usable (listened o node i named)]
      exact changed

/-- Setting the environment at rest leaves nobody behind. -/
theorem heedful_update (orderly : a.Orderly) (heedful : a.Heedful) (idle : a.Idle) (features : Media.Features) :
    (a.act (.update features)).Heedful := by
  intro o i named whole usable heard due
  have acted : a.Acted (.update features) (a.act (.update features)) := .set
  have mem : o ∈ a.made := (known_of_usable usable).mem named
  have cell := Engine.cell_noteValues { a.engine with features } ({ a.engine with features } : Engine).changedLists i
  have listened : (a.engine.cell i).listeners ≠ [] := fun none => heard (cell.1.trans none)
  have usable := orderly.usable_acted acted mem usable
  rw [Engine.due_of_id named, orderly.baseline_update features mem named whole,
    fresh_at_rest heedful idle named whole usable listened] at due
  have below := orderly.listened_below mem named listened
  exact ⟨_, frames_update a features ▸ List.mem_cons_self,
    orderly.stirs_of_change heedful idle features usable below due⟩

/-- A frame that goes leaves what it stirs to the frames in its place. -/
theorem heeds_replaced (orderly : a.Orderly) (heeds : a.Heeds o) {m : Move} {frames new rest : List Frame}
    {f : Frame} {failures : Nat} {heard : List (ListenerId × Reading)}
    (acted : a.Acted m { a.withEngine { a.engine with frames, failures } with heard })
    (before : a.engine.frames = f :: rest) (after : frames = new ++ rest)
    (passes : o ∈ a.made → (∀ x ∈ o.nodes, ∀ i, x.id? = some i → (a.engine.cell i).listeners ≠ []) → a.Usable o →
      a.engine.stirs f o → ∃ g ∈ new, a.engine.stirs g o) :
    Heeds { a.withEngine { a.engine with frames, failures } with heard } o := by
  intro i named usable listened due
  have mem : o ∈ a.made := (known_of_usable usable).mem named
  have usable := orderly.usable_acted acted mem usable
  obtain ⟨g, stands, stirred⟩ := heeds i named usable listened due
  have left : ∃ g ∈ frames, a.engine.stirs g o := by
    rw [after]
    rw [before] at stands
    rcases List.mem_cons.mp stands with rfl | older
    · have below := orderly.listened_below mem named listened
      obtain ⟨g, placed, stirs⟩ := passes mem below usable stirred
      exact ⟨g, List.mem_append_left _ placed, stirs⟩
    · exact ⟨g, List.mem_append_right _ older, stirred⟩
  obtain ⟨g, placed, stirs⟩ := left
  exact ⟨g, placed, Engine.stirs_restaged.trans stirs⟩

/-- A composite that tells its listeners leaves what its frame stirred to what it tells and to what is left of the
frame. -/
theorem heeds_reacted (orderly : a.Orderly) (heeds : a.Heeds o) {source s : Observable} {event : Event}
    {h : ListenerId} {pending : List (ListenerId × Target)} {failed : Nat} {rest : List Frame} {k : NodeId}
    {heard : List (ListenerId × Reading)} {m : Move}
    (acted : a.Acted m { a.withEngine { a.informed s k with
      frames := .dispatch s (.changed (a.engine.reading s)) (a.engine.cell k).listeners 0 ::
        .dispatch source event pending failed :: rest } with heard })
    (staged : Frame.Staged a.made a.handles (.dispatch source event ((h, .relay s) :: pending) failed))
    (frames : a.engine.frames = .dispatch source event ((h, .relay s) :: pending) failed :: rest)
    (named : s.id? = some k) (speaks : a.engine.due s) :
    Heeds { a.withEngine { a.informed s k with
      frames := .dispatch s (.changed (a.engine.reading s)) (a.engine.cell k).listeners 0 ::
        .dispatch source event pending failed :: rest } with heard } o := by
  intro i oid usable listened due
  have mem : o ∈ a.made := (known_of_usable usable).mem oid
  have usable := orderly.usable_acted acted mem usable
  obtain ⟨smem, -⟩ := staged.2.2.2.1 h s List.mem_cons_self
  obtain ⟨other, due⟩ := orderly.due_of_informed smem named mem due
  have heardBefore : (a.engine.cell i).listeners ≠ [] := by
    rw [← orderly.cell_informed smem named mem oid other]
    exact listened
  have nodes := orderly.listened_below mem oid heardBefore
  obtain ⟨spoken, below⟩ := orderly.reacted_spoken (.inl mem) nodes staged named speaks other
  obtain ⟨g, stands, stirred⟩ := heeds i oid usable heardBefore due
  rw [frames] at stands
  by_cases first : a.engine.stirs (.dispatch source event ((h, .relay s) :: pending) failed) o
  · rcases spoken.mp first with told | left
    · exact ⟨_, List.mem_cons_self, Engine.stirs_restaged.trans told⟩
    · exact ⟨_, List.mem_cons_of_mem _ List.mem_cons_self, Engine.stirs_restaged.trans left⟩
  · have older : g ∈ rest := (List.mem_cons.mp stands).resolve_left fun same => first (same ▸ stirred)
    refine ⟨g, List.mem_cons_of_mem _ (List.mem_cons_of_mem _ older), Engine.stirs_restaged.trans ?_⟩
    exact (below g (.inr first)).trans stirred

/-- A step of the engine leaves nobody behind. -/
theorem heeds_stepped (orderly : a.Orderly) (heeds : a.Heeds o) (whole : o.isPlain = false) {e' : Engine}
    (stepped : a.engine.Stepped e') :
    Heeds { a.withEngine e' with heard := a.heard ++ a.engine.calling?.toList } o := by
  have acted : a.Acted .advance { a.withEngine e' with heard := a.heard ++ a.engine.calling?.toList } :=
    .stepped stepped
  have sound := orderly.sound
  generalize a.heard ++ a.engine.calling?.toList = heard at acted ⊢
  cases stepped with
  | @refreshed rest frames =>
    refine orderly.heeds_replaced heeds acted frames (show rest = [] ++ rest from rfl) fun _ _ _ stirred => ?_
    rw [Engine.not_stirs (fun _ => rfl) fun m => by simp [Engine.announces]] at stirred
    contradiction
  | @stale m now pending rest frames other =>
    refine orderly.heeds_replaced heeds acted frames (show _ = [.refresh pending] ++ rest from rfl)
      fun _ _ _ stirred => ?_
    exact ⟨_, List.mem_singleton_self _, (Engine.stirs_stale other).trans stirred⟩
  | @told m now pending rest frames same =>
    rw [frames, List.forall_mem_cons] at sound
    refine orderly.heeds_replaced heeds acted frames (show _ = [_, .refresh pending] ++ rest from rfl)
      fun mem listened _ stirred => ?_
    have other : o ≠ .list m := by
      rintro rfl
      contradiction
    rcases (orderly.told_spoken (.inl mem) listened sound.1.1 same other).mp stirred with told | left
    · exact ⟨_, List.mem_cons_self, told⟩
    · exact ⟨_, List.mem_cons_of_mem _ (List.mem_singleton_self _), left⟩
  | @dispatched source event failed rest frames =>
    refine orderly.heeds_replaced heeds acted frames (show rest = [] ++ rest from rfl) fun _ _ _ stirred => ?_
    rw [Engine.not_stirs (fun _ => rfl) fun _ => rfl] at stirred
    contradiction
  | @called source event h pending failed rest frames =>
    refine orderly.heeds_replaced heeds acted frames
      (show _ = [_, .dispatch source event pending failed] ++ rest from rfl) fun _ _ _ stirred => ?_
    exact ⟨_, List.mem_cons_of_mem _ (List.mem_singleton_self _), (Engine.stirs_cons_client ..).trans stirred⟩
  | @passed source y event h pending failed rest frames idle =>
    rw [frames, List.forall_mem_cons] at sound
    refine orderly.heeds_replaced heeds acted frames (show _ = [.dispatch source event pending failed] ++ rest from rfl)
      fun mem _ usable stirred => ?_
    exact ⟨_, List.mem_singleton_self _, (orderly.stirs_passed (.inl mem) usable sound.1.1 idle).trans stirred⟩
  | reacted frames named alive due =>
    rw [frames, List.forall_mem_cons] at sound
    exact orderly.heeds_reacted heeds acted sound.1.1 frames named due

/-- The end of a client listener leaves nobody behind: the listener itself was not about to stir anything. -/
theorem heeds_finished (orderly : a.Orderly) (heeds : a.Heeds o) {failing : Bool} {e' : Engine}
    (finished : a.engine.Finished failing e') : (a.withEngine e').Heeds o := by
  intro i named usable listened due
  have mem : o ∈ a.made := (known_of_usable usable).mem named
  have before := orderly.usable_acted (.ended finished) mem usable
  have calm : ∀ listener source event, a.engine.stirs (.call listener source event) o = false := fun _ _ _ =>
    Engine.not_stirs (fun _ => rfl) fun _ => rfl
  cases finished with
  | @returned listener source source' event event' pending failed rest frames =>
    obtain ⟨f, stands, stirred⟩ := heeds i named before listened due
    rw [frames] at stands
    rcases List.mem_cons.mp stands with rfl | stands
    · rw [calm] at stirred
      contradiction
    · rcases List.mem_cons.mp stands with rfl | older
      · refine ⟨_, List.mem_cons_self, Engine.stirs_restaged.trans (Eq.trans ?_ stirred)⟩
        exact Engine.stirs_congr (fun _ _ _ => rfl) (fun _ _ _ _ _ _ => rfl) fun _ _ => rfl
      · exact ⟨f, List.mem_cons_of_mem _ older, Engine.stirs_restaged.trans stirred⟩
  | @ended listener source event rest frames =>
    obtain ⟨f, stands, stirred⟩ := heeds i named before listened due
    rw [frames] at stands
    rcases List.mem_cons.mp stands with rfl | older
    · rw [calm] at stirred
      contradiction
    · exact ⟨f, older, Engine.stirs_restaged.trans stirred⟩

/-- No move but setting the environment leaves the listeners of an observable behind. -/
theorem heeds_act (orderly : a.Orderly) (heeds : a.Heeds o) (whole : o.isPlain = false) {m : Move}
    (acted : a.Acted m a')
    (set : ∀ features, m = .update features → (a.act (.update features)).Heeds o) : a'.Heeds o := by
  have sameListeners : ∀ {a' : Audience}, (∀ i, (a'.engine.cell i).listeners = (a.engine.cell i).listeners) →
      a'.made = a.made → ∀ i, o.id? = some i → a'.Usable o → (a'.engine.cell i).listeners ≠ [] →
      a'.engine.due o → o ∈ a.made ∧ (a.engine.cell i).listeners ≠ [] := by
    intro a' listeners made i named usable listened _
    have mem : o ∈ a'.made := (known_of_usable usable).mem named
    exact ⟨made ▸ mem, listeners i ▸ listened⟩
  cases acted with
  | @gained m x w making =>
    refine orderly.heeds_undisturbed heeds (.gained (m := m) making) making.frames (orderly.reading_gain making) ?_
      fun o mem i named _ => orderly.baseline_gain making mem named
    intro i named usable listened _
    rw [making.listeners] at listened
    refine ⟨?_, listened⟩
    have mem : o ∈ (a.gain x w).made := (known_of_usable usable).mem named
    refine (List.mem_append.mp mem).resolve_right fun new => ?_
    exact listened (orderly.unused (making.newNode new named))
  | uncached =>
    exact orderly.heeds_undisturbed heeds .uncached rfl (fun _ => rfl)
      (sameListeners (fun _ => rfl) rfl) fun _ _ _ _ _ => rfl
  | configured =>
    exact orderly.heeds_undisturbed heeds .configured rfl (fun _ => rfl)
      (sameListeners (fun _ => rfl) rfl) fun _ _ _ _ _ => rfl
  | kept usable =>
    exact orderly.heeds_undisturbed heeds (.kept usable) rfl (fun _ => rfl)
      (sameListeners (fun _ => rfl) rfl) fun _ _ _ _ _ => rfl
  | @listened x usable =>
    have joined := (orderly.subscribed (known_of_usable usable)).joined
    refine orderly.heeds_undisturbed heeds (.listened usable) joined.stage.frames
      (joined.stage.reading orderly.connected) ?_ fun o mem i named listened => (joined.kept i listened).2
    intro i named usable listened due
    have mem : o ∈ a.made := (known_of_usable usable).mem named
    refine ⟨mem, fun none => ?_⟩
    -- A node that was silent knows of the present reading since the listener came.
    have fresh := joined.fresh o mem i named none listened
    rw [whole, ← joined.stage.reading orderly.connected] at fresh
    exact (Engine.due_of_id named).mp due fresh.symm
  | left usable handle =>
    have parted := (orderly.unsubscribed (known_of_usable usable) handle).parted
    refine orderly.heeds_undisturbed heeds (.left usable handle) parted.stage.frames
      (parted.stage.reading orderly.connected) ?_ fun _ _ i _ _ => parted.baseline i
    intro i named usable listened _
    exact ⟨(known_of_usable usable).mem named, parted.listened listened⟩
  | @set features => exact set features rfl
  | ended finished => exact orderly.heeds_finished heeds finished
  | @stepped e' stepped => exact orderly.heeds_stepped heeds whole stepped

/-- With listeners that leave the environment alone, no move leaves anybody behind. -/
theorem heedful_act (orderly : a.Orderly) (heedful : a.Heedful) {m : Move} (acted : a.Acted m a') (quiet : a.Quiet m) :
    a'.Heedful := by
  intro o i named whole
  have set : ∀ features, m = .update features → (a.act (.update features)).Heeds o := fun features set =>
    (orderly.heedful_update heedful (quiet features set) features).heeds whole
  exact orderly.heeds_act (heedful.heeds whole) whole acted set i named

/-- A change at rest stirs an observable that is listened to if and only if its reading changes. -/
theorem stirs_iff_changed (orderly : a.Orderly) (heedful : a.Heedful) (idle : a.Idle) (features : Media.Features)
    (usable : a.Usable o) (listened : ∀ x ∈ o.nodes, ∀ i, x.id? = some i → (a.engine.cell i).listeners ≠ []) :
    (a.act (.update features)).engine.stirs (.refresh ({ a.engine with features } : Engine).changedLists) o ↔
      (a.act (.update features)).engine.reading o ≠ a.engine.reading o := by
  refine ⟨fun stirred => ?_, orderly.stirs_of_change heedful idle features usable listened⟩
  cases plain : o.isPlain with
  | true =>
    cases o with
    | condition c => contradiction
    | rules id cs => contradiction
    | channel id => contradiction
    | list m =>
      have mem : .list m ∈ a.made := (known_of_usable usable).mem rfl
      have alive : a.engine.alive m.id := usable.alive rfl
      have differs := (orderly.announces_update features mem alive).mp stirred
      exact fun same => differs ((orderly.reading_update_list features mem alive).mp same)
  | false =>
    have due := ((Engine.stirs_whole plain).mp stirred).1
    cases named : o.id? with
    | none => simp [Engine.due, named] at due
    | some i =>
      have node := Observable.mem_nodes_self named
      have mem := (known_of_usable usable).mem named
      rw [Engine.due_of_id named, orderly.baseline_update features mem named plain,
        fresh_at_rest heedful idle named plain usable (listened o node i named)] at due
      exact due

/-- A change at rest puts the new reading in prospect, once, if the reading changes, and nothing otherwise. -/
theorem outlook_update (orderly : a.Orderly) (heedful : a.Heedful) (idle : a.Idle) (features : Media.Features)
    {l : ListenerId} (listens : a.Listens l o) :
    (a.act (.update features)).outlook l o =
      if (a.act (.update features)).engine.reading o = a.engine.reading o then []
      else [(a.act (.update features)).engine.reading o] := by
  have changed := orderly.stirs_iff_changed heedful idle features listens.usable fun x node =>
    orderly.listened listens node
  have silent : a.engine.frames = [] := idle
  rw [Audience.outlook, frames_update, silent]
  by_cases same : (a.act (.update features)).engine.reading o = a.engine.reading o
  · have calm := Bool.eq_false_iff.mpr fun stirred => changed.mp stirred same
    rw [if_pos same, Engine.prospect, calm]
    rfl
  · rw [if_neg same, Engine.prospect, changed.mpr same]
    rfl

/-- While the environment is left alone, readings stay what they are. -/
theorem reading_act (orderly : a.Orderly) {m : Move} (acted : a.Acted m a') (still : a.Still m) (x : Observable) :
    a'.engine.reading x = a.engine.reading x := by
  cases acted with
  | gained making => exact orderly.reading_gain making x
  | uncached => rfl
  | configured => rfl
  | kept usable => rfl
  | listened usable => exact (orderly.subscribed (known_of_usable usable)).joined.stage.reading orderly.connected x
  | left usable handle =>
    exact (orderly.unsubscribed (known_of_usable usable) handle).parted.stage.reading orderly.connected x
  | set => exact absurd rfl (still _)
  | ended finished => cases finished <;> rfl
  | stepped stepped =>
    cases stepped with
    | @reacted source s event h pending failed rest k frames named alive due => exact orderly.reading_informed s k x
    | refreshed => rfl
    | stale => rfl
    | told => rfl
    | dispatched => rfl
    | called => rfl
    | passed => rfl

end Orderly

variable {a b : Audience} {ms ns : List Move}

theorem Run.reading (run : Run Still a ms b) (orderly : a.Orderly) (x : Observable) :
    b.engine.reading x = a.engine.reading x := by
  induction run with
  | nil a => rfl
  | @cons a b m ms allowed still rest ih =>
    exact (ih (orderly.act allowed)).trans (orderly.reading_act (orderly.acted allowed) still x)

theorem heedful_start (features : Media.Features) (registry : Registry) : (start features registry).Heedful := by
  intro o i named _ usable
  exact absurd ((Orderly.known_of_usable usable).mem named) List.not_mem_nil

/-- With listeners that leave the environment alone, every history keeps everything in order
and leaves nobody behind. -/
theorem Run.heedful (run : Run Quiet a ms b) (orderly : a.Orderly) (heedful : a.Heedful) : b.Orderly ∧ b.Heedful :=
  have step : ∀ a m, a.Orderly ∧ a.Heedful → a.Allows m → Quiet a m → (a.act m).Orderly ∧ (a.act m).Heedful :=
    fun _ _ before allowed quiet =>
      ⟨before.1.act allowed, before.1.heedful_act before.2 (before.1.acted allowed) quiet⟩
  run.invariant step ⟨orderly, heedful⟩

/-- A change that begins at rest is told once to everybody who listens until everything is at rest again, if the
reading changes, and not at all otherwise. -/
theorem Run.told_once {l : ListenerId} {o : Observable} {features : Media.Features} (orderly : a.Orderly)
    (heedful : a.Heedful) (idle : a.Idle) (during : Run Still (a.act (.update features)) ns b) (rest : b.Idle)
    (handle : (l, o) ∈ a.handles) (listens : b.Listens l o) :
    b.heardBy l = a.heardBy l ++ if b.engine.reading o = a.engine.reading o then [] else [b.engine.reading o] := by
  have acted : a.Acted (.update features) (a.act (.update features)) := .set
  have orderly' := orderly.update features
  obtain ⟨middle, -⟩ := during.conserves orderly' handle listens
  have before := orderly.listens_before acted handle middle
  have heard : (a.act (.update features)).heardBy l = a.heardBy l := rfl
  rw [during.heard_at_rest orderly' handle listens rest, heard, orderly.outlook_update heedful idle features before,
    during.reading orderly' o]

/-- With listeners that leave the environment alone, a change of the environment comes to rest, and has told by then
each listener of a condition or of a list that was there before and stays: once if the condition or the list comes to
something new, with the new value, and not at all otherwise. Meanwhile listeners may fail, and clients may make
things, listen and leave. -/
theorem Run.notified_once {initial features : Media.Features} {registry : Registry}
    (reached : Run Quiet (start initial registry) ms a) (idle : a.Idle) :
    (∀ ns m, Run Still (a.act (.update features)) ns m → ∃ os b, Run Still m os b ∧ b.Idle) ∧
      ∀ ns b, Run Still (a.act (.update features)) ns b → b.Idle → ∀ l,
        (∀ c, (l, .condition c) ∈ a.handles → l ∉ b.removed → b.Usable (.condition c) →
          b.heardBy l = a.heardBy l ++
            if c.holds b.watcher.view = c.holds a.watcher.view then [] else [.truth (c.holds b.watcher.view)]) ∧
        ∀ m, (l, .list m) ∈ a.handles → l ∉ b.removed → b.Usable (.list m) →
          b.heardBy l = a.heardBy l ++
            if b.watcher.view m = a.watcher.view m then [] else [.truth (b.watcher.view m)] := by
  obtain ⟨orderly, heedful⟩ := reached.heedful (orderly_start initial registry) (heedful_start initial registry)
  have orderly' := orderly.update features
  refine ⟨fun ns m during => ?_, fun ns b during rest l =>
    ⟨fun c handle stays usable => ?_, fun m handle stays usable => ?_⟩⟩
  · obtain ⟨os, b, run, -, rest⟩ := (during.orderly orderly').comes_to_rest
    exact ⟨os, b, run, rest⟩
  · have listens : b.Listens l (.condition c) := ⟨during.handles orderly' handle, stays, usable⟩
    have told := during.told_once orderly heedful idle rest handle listens
    exact told.trans (congrArg _ (if_congr (Reading.truth.injEq ..).to_iff rfl rfl))
  · have listens : b.Listens l (.list m) := ⟨during.handles orderly' handle, stays, usable⟩
    have told := during.told_once orderly heedful idle rest handle listens
    exact told.trans (congrArg _ (if_congr (Reading.truth.injEq ..).to_iff rfl rfl))

/-- An environment that is neither. -/
def terminal : Media.Features := { mediaType := "tty".toList }

/-- The list, the leaf and the group tell their listeners, of which the last one fails. -/
def leafletMoves : List Move :=
  [.advance, .advance, .advance, .advance, .finish true, .advance, .advance, .advance, .advance]

/-- The environment has changed, and the listener was told. -/
def leafletTold : Audience := leafletMoves.foldl act (leafletHeard.act (.update terminal))

theorem leaflet_told : Run Still (leafletHeard.act (.update terminal)) leafletMoves leafletTold := by
  have engines : ∀ m ∈ leafletMoves, m.isEngine := by decide
  exact .of_plays (by decide +kernel) fun _ m mem => still_of_isEngine (engines m mem)

theorem Run.notified_once_leaflet :
    leafletHeard.heardBy 0 = [.truth true] ∧ leafletTold.heardBy 0 = [.truth true, .truth false] := by
  have named : Observable.id? (.condition leaflet) = some 0 := by decide +kernel
  have idle : leafletHeard.engine.frames.isEmpty := by decide +kernel
  have before : leafletHeard.heardBy 0 = [.truth true] ∧ leaflet.holds leafletHeard.watcher.view = true := by
    decide +kernel
  have after : leafletTold.engine.frames.isEmpty ∧ leafletTold.engine.alive 0 ∧ 0 ∉ leafletTold.removed ∧
      leaflet.holds leafletTold.watcher.view = false := by decide +kernel
  have reached := leaflet_reached
  have handle := leaflet_handle
  have told := leaflet_told
  -- From here on the two states are known by these facts alone.
  generalize leafletHeard = a at *
  generalize leafletTold = b at *
  obtain ⟨heard, held⟩ := before
  obtain ⟨rest, alive, stays, fails⟩ := after
  have orderly := (reached.orderly (orderly_start _ _)).update terminal
  have usable := told.usable_of_alive orderly handle named alive
  have notified := ((Run.notified_once reached (List.isEmpty_iff.mp idle)).2 _ _ told (List.isEmpty_iff.mp rest) 0).1
    _ handle stays usable
  refine ⟨heard, ?_⟩
  rw [notified, heard, held, fails]
  rfl

end Audience

end MediaWatch
