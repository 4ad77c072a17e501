import MediaWatch.Proofs.Audience.Making
import MediaWatch.Proofs.Audience.Prospect

/-! # What is told is what was in prospect

As long as the environment is left alone, whatever clients do meanwhile, what a registration was told
together with what it will be told stays the same: a step that calls the listener moves one reading from the
outlook to what was heard. At rest nothing is in prospect.
-/

namespace MediaWatch

namespace Audience

/-- What a registration with an observable will be told, if the environment is left alone. -/
def outlook (a : Audience) (l : ListenerId) (o : Observable) : List Reading :=
  a.engine.prospect l o true a.engine.frames

/-- A client listens to an observable: it asked for the registration and has not taken it off, and the observable
is still there. -/
structure Listens (a : Audience) (l : ListenerId) (o : Observable) : Prop where
  handle : (l, o) ∈ a.handles
  stays : l ∉ a.removed
  usable : a.Usable o

/-- The engine in which a composite knows of its present reading. -/
def informed (a : Audience) (s : Observable) (k : NodeId) : Engine :=
  a.engine.modifyCell k fun cell => { cell with baseline := a.engine.reading s }

namespace Orderly

variable {a a' : Audience} {l : ListenerId} {o : Observable}

theorem known_handle (orderly : a.Orderly) (handle : (l, o) ∈ a.handles) : Known a.made o :=
  (orderly.issued l o handle).2

/-- Two handles of one registration are the same. -/
theorem handle_unique (orderly : a.Orderly) {x : Observable} (first : (l, o) ∈ a.handles)
    (second : (l, x) ∈ a.handles) : o = x := by
  have same := List.inj_on_of_nodup_map orderly.handlesOnce first second rfl
  exact (Prod.mk.injEq ..).mp same |>.2

/-- A client that listens to something that can change is registered with it. -/
theorem registered (orderly : a.Orderly) (listens : a.Listens l o) {i : NodeId} (named : o.id? = some i) :
    (l, .client) ∈ (a.engine.cell i).listeners :=
  (orderly.inForce l o listens.handle i named).resolve_left listens.stays

/-- Live lists know their present value. -/
theorem lastValue_eq (orderly : a.Orderly) {m : MediaList} (mem : .list m ∈ a.made) (alive : a.engine.alive m.id) :
    a.engine.lastValue m = a.engine.features.satisfy m.descriptor := by
  rw [Engine.lastValue, orderly.current m mem alive]
  cases a.engine.features.satisfy m.descriptor <;> rfl

/-- A node with listeners is registered with each of its parts. -/
theorem relay_of_part (orderly : a.Orderly) {p : Observable} {i j : NodeId} (mem : o ∈ a.made) (named : o.id? = some i)
    (listened : (a.engine.cell i).listeners ≠ []) (part : p ∈ o.parts) (pid : p.id? = some j) :
    ∃ h, (h, .relay o) ∈ (a.engine.cell j).listeners := by
  have full := orderly.links.full o mem i named not_false listened
  obtain ⟨n, bound, rfl⟩ := List.getElem_of_mem part
  have held : n < (a.engine.cell i).held.length := by rw [full]; exact bound
  refine ⟨(a.engine.cell i).held[n], (orderly.links.relays o _ j).mpr (.inl ⟨mem, i, named, _, ?_, pid⟩)⟩
  exact List.mem_iff_getElem.mpr ⟨n, by rw [List.length_zip]; exact Nat.lt_min.mpr ⟨bound, held⟩, List.getElem_zip⟩

/-- Everything that a node with listeners is made of has listeners. -/
theorem listened_node (orderly : a.Orderly) {x : Observable} (known : Known a.made o)
    (listened : ∀ i, o.id? = some i → (a.engine.cell i).listeners ≠ []) (node : x ∈ o.nodes) :
    ∀ j, x.id? = some j → (a.engine.cell j).listeners ≠ [] := by
  induction o using Observable.part_induction with
  | step o ih =>
    rcases Observable.mem_nodes.mp node with ⟨p, part, node⟩ | ⟨rfl, -⟩
    · refine ih p part (orderly.catalogue.known_part known part) (fun j pid => ?_) node
      cases named : o.id? with
      | none =>
        rw [Observable.parts_of_constant named] at part
        exact absurd part List.not_mem_nil
      | some i =>
        obtain ⟨h, relay⟩ := orderly.relay_of_part (known.mem named) named (listened i named) part pid
        exact List.ne_nil_of_mem relay
    · exact listened

/-- While somebody listens to an observable, somebody listens to every node below it. -/
theorem listened_below (orderly : a.Orderly) {i : NodeId} (mem : o ∈ a.made) (named : o.id? = some i)
    (listened : (a.engine.cell i).listeners ≠ []) :
    ∀ x ∈ o.nodes, ∀ j, x.id? = some j → (a.engine.cell j).listeners ≠ [] := by
  intro x node
  refine orderly.listened_node (.inl mem) (fun j same => ?_) node
  obtain rfl : i = j := Option.some.inj (named.symm.trans same)
  exact listened

/-- A node that is told by another one has it as a part. -/
theorem part_of_asks (orderly : a.Orderly) {s x : Observable} {event : Event} {pending : List (ListenerId × Target)}
    {failed : Nat} (staged : Frame.Staged a.made a.handles (.dispatch s event pending failed)) {i : NodeId}
    (mem : x ∈ a.made) (named : x.id? = some i) (asked : (Frame.dispatch s event pending failed).asks i) :
    s ∈ x.parts := by
  obtain ⟨h, y, pends, yid⟩ := Engine.asks_iff.mp asked
  obtain ⟨ymem, part⟩ := staged.2.2.2.1 h y pends
  obtain rfl : y = x := orderly.catalogue.eq_of_id ymem mem (by rw [yid, named])
  exact part

/-- A node that tells its listeners tells those nodes that have it as a part, if they have listeners. -/
theorem asks_listeners (orderly : a.Orderly) {s x : Observable} {k i : NodeId} (mem : s ∈ a.made)
    (named : s.id? = some k)
    (xmem : x ∈ a.made) (xid : x.id? = some i) (listened : (a.engine.cell i).listeners ≠ []) (reading : Reading)
    (failed : Nat) : (Frame.dispatch s (.changed reading) (a.engine.cell k).listeners failed).asks i ↔ s ∈ x.parts := by
  constructor
  · exact orderly.part_of_asks (orderly.staged_listeners mem named reading failed) xmem xid
  · intro part
    obtain ⟨h, relay⟩ := orderly.relay_of_part xmem xid listened part named
    exact Engine.asks_iff.mpr ⟨h, x, relay, xid⟩

/-- A frame that stirs an observable is not about to tell a listener of it by itself. -/
theorem word_eq_nil_of_stirs (orderly : a.Orderly) (handle : (l, o) ∈ a.handles) {f : Frame}
    (staged : f.Staged a.made a.handles) (stirred : a.engine.stirs f o) : a.engine.word l f = [] := by
  match f with
  | .refresh pending => rfl
  | .call listener source event => rfl
  | .dispatch source event pending failed =>
    refine Engine.word_eq_nil fun client => ?_
    obtain rfl : o = source := orderly.handle_unique handle (staged.2.2.2.2 l client)
    have smaller : sizeOf o < sizeOf o := by
      refine Engine.sizeOf_lt_of_stirs (fun x node i named asked => ?_) stirred
      have mem := orderly.catalogue.mem_of_node (orderly.known_handle handle) node
      exact orderly.part_of_asks staged mem named asked
    exact absurd smaller (Nat.lt_irrefl _)

theorem listened (orderly : a.Orderly) (listens : a.Listens l o) {x : Observable} (node : x ∈ o.nodes) :
    ∀ j, x.id? = some j → (a.engine.cell j).listeners ≠ [] :=
  orderly.listened_node (orderly.known_handle listens.handle)
    (fun _ named => List.ne_nil_of_mem (orderly.registered listens named)) node

/-- Only the listeners of a node are called by what the node tells. -/
theorem silent_listeners (orderly : a.Orderly) (handle : (l, o) ∈ a.handles) {s : Observable}
    {k : NodeId} (mem : s ∈ a.made) (named : s.id? = some k) (other : o ≠ s) (event : Event) (failed : Nat) :
    a.engine.word l (.dispatch s event (a.engine.cell k).listeners failed) = [] :=
  Engine.word_eq_nil fun client => other (orderly.handle_unique handle (orderly.handle_eq client mem named))

/-- What a changed list stirs above it is stirred by what it tells, or by the lists that are still to be told of. -/
theorem told_spoken (orderly : a.Orderly) (known : Known a.made o)
    (listened : ∀ x ∈ o.nodes, ∀ i, x.id? = some i → (a.engine.cell i).listeners ≠ []) {m : MediaList} {now : Bool}
    {pending : List (MediaList × Bool)} (staged : Frame.Staged a.made a.handles (.refresh ((m, now) :: pending)))
    (same : a.engine.lastValue m = now) (other : o ≠ .list m) :
    a.engine.stirs (.refresh ((m, now) :: pending)) o ↔
      a.engine.stirs (.dispatch (.list m) (.changed (.truth now)) (a.engine.cell m.id).listeners 0) o ∨
        a.engine.stirs (.refresh pending) o := by
  have mem : .list m ∈ a.made := staged.2 (m, now) List.mem_cons_self
  have announced : a.engine.announces (.refresh ((m, now) :: pending)) m = true := by
    simp [Engine.announces, same]
  refine Engine.stirs_spoken (s := .list m) (fun _ _ _ _ => rfl) (fun x node i xid => ?_) (fun _ => rfl) announced
    (fun _ _ _ _ _ => rfl) (fun k _ other => ?_) other
  · exact orderly.asks_listeners mem rfl (orderly.catalogue.mem_of_node known node) xid (listened x node i xid) _ _
  · have distinct : k ≠ m := fun hit => other (congrArg _ hit)
    simp [Engine.announces, distinct]

/-- A list that changed tells its listeners: theirs is the value that was in prospect. -/
theorem told_conserves (orderly : a.Orderly) (listens : a.Listens l o) {m : MediaList} {now : Bool}
    {pending : List (MediaList × Bool)} {rest : List Frame}
    (staged : Frame.Staged a.made a.handles (.refresh ((m, now) :: pending))) (same : a.engine.lastValue m = now) :
    a.engine.prospect l o true (.dispatch (.list m) (.changed (.truth now)) (a.engine.cell m.id).listeners 0 ::
      .refresh pending :: rest) = a.engine.prospect l o true (.refresh ((m, now) :: pending) :: rest) := by
  have mem : .list m ∈ a.made := staged.2 (m, now) List.mem_cons_self
  by_cases mine : o = .list m
  · subst mine
    have announced : a.engine.announces (.refresh ((m, now) :: pending)) m = true := by
      simp [Engine.announces, same]
    have value : a.engine.reading (.list m) = .truth now := by
      rw [← same, orderly.lastValue_eq mem (listens.usable.alive rfl)]
      simp only [Engine.reading, Observable.reading, Engine.view, orderly.connected, ↓reduceIte]
    have once : a.engine.announces (.refresh pending) m = false := by
      rw [Engine.announces, decide_eq_false_iff_not]
      exact fun again => (List.nodup_cons.mp staged.1).1 (List.mem_map.mpr ⟨_, again, rfl⟩)
    have word : a.engine.word l (.dispatch (.list m) (.changed (.truth now)) (a.engine.cell m.id).listeners 0) =
        [.truth now] := Engine.word_eq_given (orderly.registered listens rfl)
    have before : a.engine.prospect l (.list m) true (.refresh ((m, now) :: pending) :: rest) =
        .truth now :: a.engine.prospect l (.list m) true rest := by
      simp only [Engine.prospect, Engine.word, Engine.stirs, announced, value, Bool.and_self, ↓reduceIte,
        Observable.isPlain, List.nil_append]
    have calm : a.engine.stirs (.dispatch (.list m) (.changed (.truth now)) (a.engine.cell m.id).listeners 0)
        (.list m) = false := rfl
    have skipped : a.engine.prospect l (.list m) true (.refresh pending :: rest) =
        a.engine.prospect l (.list m) true rest := Engine.prospect_skip rfl once
    rw [before, Engine.prospect, word, calm, Bool.and_false, skipped]
    rfl
  · refine Engine.prospect_spoken (orderly.silent_listeners listens.handle mem rfl mine _ _) (fun _ => rfl) rfl rfl ?_
      (orderly.word_eq_nil_of_stirs listens.handle staged) (fun _ _ _ => rfl) ?_
    · exact orderly.told_spoken (orderly.known_handle listens.handle)
        (fun x node => orderly.listened listens node) staged same mine
    · intro plain
      exact ⟨Engine.not_stirs_plain plain, fun _ _ => rfl⟩

/-- An observable that is passed over is none of those that could be stirred: it is dead, or it is not due. -/
theorem stirs_passed (orderly : a.Orderly) (known : Known a.made o) (usable : a.Usable o) {source y : Observable}
    {event : Event} {h : ListenerId} {pending : List (ListenerId × Target)} {failed : Nat}
    (staged : Frame.Staged a.made a.handles (.dispatch source event ((h, .relay y) :: pending) failed))
    (idle : y.id?.any a.engine.alive = false ∨ a.engine.due y = false) :
    a.engine.stirs (.dispatch source event pending failed) o =
      a.engine.stirs (.dispatch source event ((h, .relay y) :: pending) failed) o := by
  obtain ⟨ymem, -⟩ := staged.2.2.2.1 h y List.mem_cons_self
  refine Engine.stirs_congr (fun _ _ _ => rfl) (fun x node _ due i xid => ?_) fun _ _ => rfl
  have unasked : y.id? ≠ some i := by
    intro same
    have mem := orderly.catalogue.mem_of_node known node
    obtain rfl : x = y := orderly.catalogue.eq_of_id mem ymem (xid.trans same.symm)
    rcases idle with dead | fresh
    · rw [xid, Option.any_some, (orderly.usable_node usable node).alive xid] at dead
      contradiction
    · rw [fresh] at due
      contradiction
  simp [Frame.asks, unasked]

theorem reading_informed (orderly : a.Orderly) (s : Observable) (k : NodeId) (x : Observable) :
    (a.informed s k).reading x = a.engine.reading x :=
  (Engine.SameStage.modifyCell a.engine k _).reading orderly.connected x

/-- Other nodes know of what they knew of. -/
theorem cell_informed (orderly : a.Orderly) {s x : Observable} {k i : NodeId} (mem : s ∈ a.made)
    (named : s.id? = some k)
    (xmem : x ∈ a.made) (xid : x.id? = some i) (other : x ≠ s) : (a.informed s k).cell i = a.engine.cell i := by
  rw [informed, Engine.cell_modifyCell, if_neg]
  exact fun same => other (orderly.catalogue.eq_of_id xmem mem (by rw [xid, named, same]))

theorem not_due_informed (orderly : a.Orderly) {s : Observable} {k : NodeId} (named : s.id? = some k) :
    (a.informed s k).due s = false := by
  rw [← Bool.not_eq_true, Engine.due_of_id named, orderly.reading_informed, informed,
    Engine.cell_modifyCell, if_pos rfl]
  exact not_not_intro rfl

/-- What is due once a composite knows of its reading is another one that was due before. -/
theorem due_of_informed (orderly : a.Orderly) {s : Observable} {k : NodeId} (smem : s ∈ a.made) (named : s.id? = some k)
    (mem : o ∈ a.made) (due : (a.informed s k).due o) : o ≠ s ∧ a.engine.due o := by
  have other : o ≠ s := by
    rintro rfl
    rw [orderly.not_due_informed named] at due
    contradiction
  refine ⟨other, ?_⟩
  rw [← Engine.due_congr (orderly.reading_informed s k) fun i oid => ?_]
  · exact due
  · rw [orderly.cell_informed smem named mem oid other]

/-- What a composite with a new reading stirs above it is stirred by what it tells or by what is left of the frame, and
frames further down stir what they stirred before. -/
theorem reacted_spoken (orderly : a.Orderly) (known : Known a.made o)
    (listened : ∀ x ∈ o.nodes, ∀ i, x.id? = some i → (a.engine.cell i).listeners ≠ []) {source s : Observable}
    {event : Event} {h : ListenerId} {pending : List (ListenerId × Target)} {failed : Nat} {k : NodeId}
    (staged : Frame.Staged a.made a.handles (.dispatch source event ((h, .relay s) :: pending) failed))
    (named : s.id? = some k) (due : a.engine.due s) (other : o ≠ s) :
    (a.engine.stirs (.dispatch source event ((h, .relay s) :: pending) failed) o ↔
      (a.informed s k).stirs (.dispatch s (.changed (a.engine.reading s)) (a.engine.cell k).listeners 0) o ∨
        (a.informed s k).stirs (.dispatch source event pending failed) o) ∧
    ∀ g, (o.isPlain ∨ ¬ a.engine.stirs (.dispatch source event ((h, .relay s) :: pending) failed) o) →
      (a.informed s k).stirs g o = a.engine.stirs g o := by
  obtain ⟨mem, part⟩ := staged.2.2.2.1 h s List.mem_cons_self
  have whole := Observable.not_isPlain_of_part part
  have speaks : a.engine.stirs (.dispatch source event ((h, .relay s) :: pending) failed) s :=
    (Engine.stirs_whole whole).mpr ⟨due, .inl ⟨k, named, Engine.asks_iff.mpr ⟨h, s, List.mem_cons_self, named⟩⟩⟩
  have nodeMem : ∀ x ∈ o.nodes, x ∈ a.made := fun x node => orderly.catalogue.mem_of_node known node
  have sameDue : ∀ x ∈ o.nodes, x ≠ s → x.isPlain = false → (a.informed s k).due x = a.engine.due x := by
    intro x node other _
    refine Engine.due_congr (orderly.reading_informed s k) fun i xid => ?_
    rw [orderly.cell_informed mem named (nodeMem x node) xid other]
  have sameAnnounces : ∀ g m, .list m ∈ o.nodes → (a.informed s k).announces g m = a.engine.announces g m := by
    intro g m node
    have other : .list m ≠ s := by
      rintro rfl
      contradiction
    exact Engine.announces_congr (by rw [orderly.cell_informed mem named (nodeMem _ node) rfl other]) g
  refine ⟨?_, fun g calm => ?_⟩
  · refine Engine.stirs_spoken sameDue (fun x node i xid => ?_) (fun _ => rfl) speaks (fun x node other i xid => ?_)
      (fun m node _ => ?_) other
    · exact orderly.asks_listeners mem named (nodeMem x node) xid (listened x node i xid) _ _
    · have unasked : s.id? ≠ some i := fun same =>
        other (orderly.catalogue.eq_of_id (nodeMem x node) mem (xid.trans same.symm))
      simp [Frame.asks, unasked]
    · rfl
  · rcases calm with plain | calm
    · cases o with
      | list m => exact sameAnnounces g m (Observable.mem_nodes_self rfl)
      | condition c => contradiction
      | rules id cs => contradiction
      | channel id => rfl
    · exact Engine.stirs_below sameDue speaks (sameAnnounces g) calm

/-- A composite with a new reading tells its listeners: theirs is the reading that was in prospect. -/
theorem reacted_conserves (orderly : a.Orderly) (listens : a.Listens l o) {source s : Observable} {event : Event}
    {h : ListenerId} {pending : List (ListenerId × Target)} {failed : Nat} {rest : List Frame} {k : NodeId}
    (staged : Frame.Staged a.made a.handles (.dispatch source event ((h, .relay s) :: pending) failed))
    (named : s.id? = some k) (due : a.engine.due s) :
    (a.informed s k).prospect l o true
      (.dispatch s (.changed (a.engine.reading s)) (a.engine.cell k).listeners 0 ::
        .dispatch source event pending failed :: rest) =
      a.engine.prospect l o true (.dispatch source event ((h, .relay s) :: pending) failed :: rest) := by
  obtain ⟨mem, part⟩ := staged.2.2.2.1 h s List.mem_cons_self
  have readings := orderly.reading_informed s k
  by_cases mine : o = s
  · subst mine
    have whole := Observable.not_isPlain_of_part part
    have speaks : a.engine.stirs (.dispatch source event ((h, .relay o) :: pending) failed) o :=
      (Engine.stirs_whole whole).mpr ⟨due, .inl ⟨k, named, Engine.asks_iff.mpr ⟨h, o, List.mem_cons_self, named⟩⟩⟩
    have absent : (l, .client) ∉ pending := by
      intro client
      obtain rfl := orderly.handle_unique listens.handle (staged.2.2.2.2 l (List.mem_cons_of_mem _ client))
      exact absurd (Observable.sizeOf_part part) (Nat.lt_irrefl _)
    have calm : ∀ g, (a.informed o k).stirs g o = false := by
      intro g
      rw [← Bool.not_eq_true, Engine.stirs_whole whole, orderly.not_due_informed named]
      exact fun never => Bool.false_ne_true never.1
    have word : (a.informed o k).word l (.dispatch o (.changed (a.engine.reading o)) (a.engine.cell k).listeners 0) =
        [a.engine.reading o] := by
      rw [Engine.word_eq_given (orderly.registered listens named), ← readings, Engine.given_self]
    have words : (a.informed o k).word l = a.engine.word l := funext fun g => Engine.word_congr readings g
    have before : a.engine.prospect l o true (.dispatch source event ((h, .relay o) :: pending) failed :: rest) =
        a.engine.reading o :: rest.flatMap (a.engine.word l) := by
      have disarmed : a.engine.prospect l o false rest = rest.flatMap (a.engine.word l) :=
        Engine.prospect_unstirred fun never => absurd never Bool.false_ne_true
      rw [Engine.prospect, orderly.word_eq_nil_of_stirs listens.handle staged speaks, speaks, whole, disarmed]
      rfl
    rw [before, Engine.prospect_unstirred fun _ g _ => calm g, List.flatMap_cons, List.flatMap_cons, word, words,
      Engine.word_eq_nil absent]
    rfl
  · obtain ⟨spoken, below⟩ := orderly.reacted_spoken (orderly.known_handle listens.handle)
      (fun x node => orderly.listened listens node) staged named due mine
    refine Engine.prospect_spoken ?_ (Engine.word_congr readings) (Engine.word_cons_relay ..).symm (readings o) spoken
      (orderly.word_eq_nil_of_stirs listens.handle staged) (fun calm g _ => below g (.inr calm)) ?_
    · rw [Engine.word_congr readings]
      exact orderly.silent_listeners listens.handle mem named mine _ _
    · intro plain
      exact ⟨Engine.not_stirs_plain plain, fun g _ => below g (.inl plain)⟩

/-- A step of the engine moves at most one reading out of what is in prospect, and that reading is told. -/
theorem step_conserves (orderly : a.Orderly) (listens : a.Listens l o) {e' : Engine} (stepped : a.engine.Stepped e') :
    (a.engine.calling?.toList.filter fun entry => entry.1 == l).map Prod.snd ++ e'.prospect l o true e'.frames =
      a.engine.prospect l o true a.engine.frames := by
  have sound := orderly.sound
  cases stepped with
  | @refreshed rest frames =>
    have uncalled := Engine.calling?_of_refresh frames
    rw [uncalled, Engine.prospect_restaged, frames]
    exact (Engine.prospect_skip rfl (Engine.not_stirs (fun _ => rfl) fun m => by simp [Engine.announces])).symm
  | @stale m now pending rest frames other =>
    have uncalled := Engine.calling?_of_refresh frames
    rw [uncalled, Engine.prospect_restaged, frames]
    exact Engine.prospect_replace rfl (Engine.stirs_stale other)
  | @told m now pending rest frames same =>
    have uncalled := Engine.calling?_of_refresh frames
    rw [frames, List.forall_mem_cons] at sound
    rw [uncalled, Engine.prospect_restaged, frames]
    exact orderly.told_conserves listens sound.1.1 same
  | @dispatched source event failed rest frames =>
    have uncalled := Engine.calling?_of_told frames
    rw [uncalled, Engine.prospect_restaged, frames]
    exact (Engine.prospect_skip (Engine.word_eq_nil List.not_mem_nil)
      (Engine.not_stirs (fun _ => rfl) fun _ => rfl)).symm
  | @called source event h pending failed rest frames =>
    rw [frames, List.forall_mem_cons] at sound
    obtain ⟨⟨⟨r, rfl⟩, -, once, -⟩, -⟩ := sound.1
    have calling := Engine.calling?_of_client frames
    have stirs := Engine.stirs_cons_client (e := a.engine) (o := o) source (.changed r) h pending failed
    have skipped : a.engine.prospect l o true
        (.call h source (.changed r) :: .dispatch source (.changed r) pending failed :: rest) =
        a.engine.prospect l o true (.dispatch source (.changed r) pending failed :: rest) :=
      Engine.prospect_skip rfl (Engine.not_stirs (fun _ => rfl) fun _ => rfl)
    rw [calling, Engine.prospect_restaged, frames, skipped]
    by_cases mine : h = l
    · subst mine
      have absent : (h, .client) ∉ pending := fun again =>
        (List.nodup_cons.mp once).1 (List.mem_map.mpr ⟨_, again, rfl⟩)
      have word : a.engine.word h (.dispatch source (.changed r) ((h, .client) :: pending) failed) =
          [a.engine.given source r] := Engine.word_eq_given List.mem_cons_self
      rw [Engine.prospect, Engine.prospect, word, Engine.word_eq_nil absent, stirs]
      simp
    · rw [Engine.prospect_replace (Engine.word_cons_other mine ..).symm stirs]
      simp [mine]
  | @passed source y event h pending failed rest frames idle =>
    have uncalled := Engine.calling?_of_relay frames
    rw [frames, List.forall_mem_cons] at sound
    rw [uncalled, Engine.prospect_restaged, frames]
    exact Engine.prospect_replace (Engine.word_cons_relay ..).symm
      (orderly.stirs_passed (orderly.known_handle listens.handle) listens.usable sound.1.1 idle)
  | @reacted source s event h pending failed rest k frames named alive due =>
    have uncalled := Engine.calling?_of_relay frames
    rw [frames, List.forall_mem_cons] at sound
    rw [uncalled, frames]
    refine Eq.trans ?_ (orderly.reacted_conserves listens sound.1.1 named due)
    exact Engine.prospect_undisturbed (fun _ => rfl) fun _ _ _ _ => rfl

/-- Who listens after a move and had the registration before it listened before it. -/
theorem listens_before (orderly : a.Orderly) {m : Move} (acted : a.Acted m a') (handle : (l, o) ∈ a.handles)
    (after : a'.Listens l o) : a.Listens l o := by
  refine ⟨handle, fun gone => after.stays (acted.removed gone), ?_⟩
  rcases orderly.known_handle handle with mem | constant
  · exact orderly.usable_acted acted mem after.usable
  · exact .inl constant

/-- No move but a change of the environment changes what a registration was told and will be told. -/
theorem act_conserves (orderly : a.Orderly) {m : Move} (acted : a.Acted m a') (still : a.Still m)
    (listens : a.Listens l o) : a'.heardBy l ++ a'.outlook l o = a.heardBy l ++ a.outlook l o := by
  have nodeMem : ∀ x ∈ o.nodes, x ∈ a.made := fun x node =>
    orderly.catalogue.mem_of_node (orderly.known_handle listens.handle) node
  have undisturbed : ∀ {e' : Engine}, e'.frames = a.engine.frames → (∀ x, e'.reading x = a.engine.reading x) →
      (∀ x ∈ o.nodes, ∀ i, x.id? = some i → (e'.cell i).baseline = (a.engine.cell i).baseline) →
      e'.prospect l o true e'.frames = a.outlook l o := by
    intro e' frames readings baseline
    rw [frames]
    exact Engine.prospect_undisturbed readings baseline
  cases acted with
  | gained making =>
    exact congrArg (a.heardBy l ++ ·) (undisturbed making.frames (orderly.reading_gain making) fun x node _ =>
      orderly.baseline_gain making (nodeMem x node))
  | uncached => exact congrArg (a.heardBy l ++ ·) (undisturbed rfl (fun _ => rfl) fun _ _ _ _ => rfl)
  | configured => rfl
  | kept usable => exact congrArg (a.heardBy l ++ ·) (undisturbed rfl (fun _ => rfl) fun _ _ _ _ => rfl)
  | @listened x usable =>
    have subscribed := orderly.subscribed (known_of_usable usable)
    have joined := subscribed.joined
    have other : (a.engine.subscribe x .client).1 ≠ l := by
      rw [subscribed.listener_eq]
      exact (Nat.ne_of_lt (orderly.issued l o listens.handle).1).symm
    have heard : (a.listen x).heardBy l = a.heardBy l := by
      show ((a.heard ++ [((a.engine.subscribe x .client).1, _)]).filter _).map _ = _
      rw [List.filter_append, List.filter_singleton, beq_false_of_ne other]
      simp [heardBy]
    rw [heard]
    refine congrArg (a.heardBy l ++ ·) (undisturbed joined.stage.frames (joined.stage.reading orderly.connected) ?_)
    intro y node i yid
    exact (joined.kept i (orderly.listened listens node i yid)).2
  | left usable handle =>
    have parted := (orderly.unsubscribed (known_of_usable usable) handle).parted
    exact congrArg (a.heardBy l ++ ·) (undisturbed parted.stage.frames (parted.stage.reading orderly.connected)
      fun _ _ i _ => parted.baseline i)
  | set => exact absurd rfl (still _)
  | @ended failing e' finished =>
    apply congrArg (a.heardBy l ++ ·)
    have skip : ∀ listener source event rest, a.engine.prospect l o true (.call listener source event :: rest) =
        a.engine.prospect l o true rest := fun _ _ _ _ =>
      Engine.prospect_skip rfl (Engine.not_stirs (fun _ => rfl) fun _ => rfl)
    show e'.prospect l o true e'.frames = a.engine.prospect l o true a.engine.frames
    cases finished with
    | @returned listener source source' event event' pending failed rest frames =>
      rw [frames, skip, Engine.prospect_restaged]
      refine Engine.prospect_replace (by cases event' <;> rfl)
        (Engine.stirs_congr (fun _ _ _ => rfl) (fun _ _ _ _ _ _ => rfl) fun _ _ => rfl)
    | ended frames =>
      rw [frames, skip, Engine.prospect_restaged]
  | @stepped e' stepped =>
    have heard : Audience.heardBy { a.withEngine e' with heard := a.heard ++ a.engine.calling?.toList } l =
        a.heardBy l ++ (a.engine.calling?.toList.filter fun entry => entry.1 == l).map Prod.snd := by
      simp only [heardBy, List.filter_append, List.map_append]
    rw [heard, List.append_assoc]
    exact congrArg (a.heardBy l ++ ·) (orderly.step_conserves listens stepped)

end Orderly

/-- At rest nothing is in prospect. -/
theorem Idle.outlook {a : Audience} (idle : a.Idle) (l : ListenerId) (o : Observable) : a.outlook l o = [] := by
  rw [Audience.outlook, idle]
  rfl

/-- While the environment is left alone, what a registration was told and will be told stays the same. -/
theorem Run.conserves {a b : Audience} {ms : List Move} (run : Run Still a ms b) (orderly : a.Orderly) {l : ListenerId}
    {o : Observable} (handle : (l, o) ∈ a.handles) (listens : b.Listens l o) :
    a.Listens l o ∧ b.heardBy l ++ b.outlook l o = a.heardBy l ++ a.outlook l o := by
  induction run with
  | nil a => exact ⟨listens, rfl⟩
  | @cons a b m ms allowed still rest ih =>
    have acted := orderly.acted allowed
    obtain ⟨middle, same⟩ := ih (orderly.act allowed) (acted.handles handle) listens
    have before := orderly.listens_before acted handle middle
    exact ⟨before, same.trans (orderly.act_conserves acted still before)⟩

/-- Who still listens when everything has come to rest was told exactly what was in prospect. -/
theorem Run.heard_at_rest {a b : Audience} {ms : List Move} (run : Run Still a ms b) (orderly : a.Orderly)
    {l : ListenerId} {o : Observable} (handle : (l, o) ∈ a.handles) (listens : b.Listens l o) (idle : b.Idle) :
    b.heardBy l = a.heardBy l ++ a.outlook l o := by
  obtain ⟨-, same⟩ := run.conserves orderly handle listens
  rw [idle.outlook, List.append_nil] at same
  exact same

end Audience

end MediaWatch
