import MediaWatch.Proofs.Audience.Basic
import MediaWatch.Proofs.Engine.Joining
import MediaWatch.Proofs.Engine.Parting
import MediaWatch.Proofs.Engine.Stepping

/-! # What is always in order

Whatever clients do, at rest or while one of their listeners is running, the catalogue of what was made
stays complete, links between nodes and their parts have both ends, live lists know their present value,
and what is under way refers to things that were made. Nothing is assumed of how clients use the
environment.
-/

namespace MediaWatch

/-- A frame refers to things that were made, to each of its pending ones once. -/
def Frame.Staged (made : List Observable) (handles : List (ListenerId × Observable)) : Frame → Prop
  | .refresh pending => (pending.map Prod.fst).Nodup ∧ ∀ change ∈ pending, .list change.1 ∈ made
  | .dispatch source event pending _ =>
    (∃ reading, event = .changed reading) ∧ source ∈ made ∧ (pending.map Prod.fst).Nodup ∧
      (∀ l y, (l, .relay y) ∈ pending → y ∈ made ∧ source ∈ y.parts) ∧
      ∀ l, (l, .client) ∈ pending → (l, source) ∈ handles
  | .call _ _ _ => True

theorem Frame.Staged.mono {made made' : List Observable} {handles handles' : List (ListenerId × Observable)} {f : Frame}
    (staged : f.Staged made handles) (more : made ⊆ made') (moreHandles : handles ⊆ handles') :
    f.Staged made' handles' := by
  match f with
  | .refresh pending => exact ⟨staged.1, fun change mem => more (staged.2 change mem)⟩
  | .dispatch source event pending failed =>
    obtain ⟨changed, mem, once, relays, clients⟩ := staged
    exact ⟨changed, more mem, once, fun l y relay => ⟨more (relays l y relay).1, (relays l y relay).2⟩,
      fun l client => moreHandles (clients l client)⟩
  | .call _ _ _ => trivial

namespace Audience

/-- The order that every history keeps. -/
structure Orderly (a : Audience) : Prop where
  catalogue : Catalogue a.made a.engine.nextNode
  connected : a.engine.connected = true
  links : a.engine.InOrder a.made
  /-- The engine keeps the lists that were made. -/
  listsOnce : a.engine.lists.Nodup
  lists : ∀ l, l ∈ a.engine.lists ↔ .list l ∈ a.made
  /-- Live lists know their present value. -/
  current : ∀ l, .list l ∈ a.made → a.engine.alive l.id →
    (a.engine.cell l.id).baseline = .truth (a.engine.features.satisfy l.descriptor)
  /-- Clients and the cache own what was made, or constants. -/
  owned : a.engine.owned = a.kept ++ a.watcher.cache.map fun entry => .condition entry.2
  known : ∀ o ∈ a.engine.owned, Known a.made o
  frames : ∀ f ∈ a.engine.frames, f.Staged a.made a.handles
  /-- A registration of a client is one that it asked for and did not take off. -/
  handled : ∀ i l, (l, .client) ∈ (a.engine.cell i).listeners →
    l ∉ a.removed ∧ ∃ o, (l, o) ∈ a.handles ∧ o.id? = some i
  issued : ∀ l o, (l, o) ∈ a.handles → l < a.engine.nextListener ∧ Known a.made o
  foreign : ∀ l o, (l, o) ∈ a.handles → ∀ i x, (l, .relay x) ∉ (a.engine.cell i).listeners
  handlesOnce : (a.handles.map Prod.fst).Nodup
  /-- What a client asked for is in force until the client takes it off, which works once. -/
  inForce : ∀ l o, (l, o) ∈ a.handles → ∀ i, o.id? = some i →
    l ∈ a.removed ∨ (l, .client) ∈ (a.engine.cell i).listeners
  removedOnce : a.removed.Nodup
  removed : ∀ l ∈ a.removed, ∃ o, (l, o) ∈ a.handles

theorem alive_iff {e : Engine} {id : NodeId} :
    e.alive id ↔ ∃ r ∈ e.roots, ∃ y ∈ r.nodes, y.id? = some id := by
  rw [Engine.alive, List.any_eq_true]
  exact exists_congr fun r => and_congr_right fun _ => Observable.mentions_iff

private theorem nodes_of_constant {o : Observable} (constant : o.id? = none) : o.nodes = [] := by
  rw [Observable.nodes_eq, Observable.parts_of_constant constant, Observable.self, constant]
  rfl

/-- What has an identity and can be used is alive. -/
theorem Usable.alive {a : Audience} {o : Observable} {i : NodeId} (usable : a.Usable o) (named : o.id? = some i) :
    a.engine.alive i := by
  rcases usable with constant | ⟨-, j, same, alive⟩
  · rw [named] at constant
    contradiction
  · obtain rfl : i = j := Option.some.inj (named.symm.trans same)
    exact alive

/-- A frame refers to what was made and keeps alive what can be used. -/
def Sound (a : Audience) (f : Frame) : Prop := f.Staged a.made a.handles ∧ ∀ o ∈ f.owned, a.Usable o

theorem Sound.tail_refresh {a : Audience} {change : MediaList × Bool} {pending : List (MediaList × Bool)}
    (sound : a.Sound (.refresh (change :: pending))) : a.Sound (.refresh pending) :=
  ⟨⟨(List.nodup_cons.mp sound.1.1).2, fun other mem => sound.1.2 other (List.mem_cons_of_mem _ mem)⟩,
    fun o owns => sound.2 o (List.mem_cons_of_mem _ owns)⟩

theorem Sound.tail_dispatch {a : Audience} {source : Observable} {event : Event} {entry : ListenerId × Target}
    {pending : List (ListenerId × Target)} {failed : Nat}
    (sound : a.Sound (.dispatch source event (entry :: pending) failed)) :
    a.Sound (.dispatch source event pending failed) := by
  obtain ⟨⟨changed, mem, once, relays, clients⟩, usable⟩ := sound
  exact ⟨⟨changed, mem, (List.nodup_cons.mp once).2, fun l y relay => relays l y (List.mem_cons_of_mem _ relay),
    fun l client => clients l (List.mem_cons_of_mem _ client)⟩, usable⟩

namespace Orderly

variable {a a' : Audience}

private theorem known_root (orderly : a.Orderly) {r : Observable} (root : r ∈ a.engine.roots) : Known a.made r := by
  rcases List.mem_append.mp root with owned | framed
  · exact orderly.known r owned
  · obtain ⟨f, mem, owns⟩ := List.mem_flatMap.mp framed
    match f, owns, orderly.frames f mem with
    | .refresh pending, owns, staged =>
      obtain ⟨change, listed, rfl⟩ := List.mem_map.mp owns
      exact .inl (staged.2 change listed)
    | .dispatch source event pending failed, owns, staged =>
      obtain rfl := List.mem_singleton.mp owns
      exact .inl staged.2.1

/-- What a live node is made of is alive. -/
theorem alive_node (orderly : a.Orderly) {o x : Observable} {i j : NodeId} (mem : o ∈ a.made) (named : o.id? = some i)
    (alive : a.engine.alive i) (node : x ∈ o.nodes) (xid : x.id? = some j) : a.engine.alive j := by
  obtain ⟨r, root, y, inner, yid⟩ := alive_iff.mp alive
  have ymem := orderly.catalogue.mem_of_node (orderly.known_root root) inner
  obtain rfl : y = o := orderly.catalogue.eq_of_id ymem mem (by rw [yid, named])
  exact alive_iff.mpr ⟨r, root, x, Observable.nodes_trans node inner, xid⟩

/-- Everything that is kept alive can be used. -/
theorem usable_root (orderly : a.Orderly) {r : Observable} (root : r ∈ a.engine.roots) : a.Usable r := by
  rcases orderly.known_root root with mem | constant
  · obtain ⟨id, -, named⟩ := orderly.catalogue.named r mem
    exact .inr ⟨mem, id, named, alive_iff.mpr ⟨r, root, r, Observable.mem_nodes_self named, named⟩⟩
  · exact .inl constant

/-- What clients own can be used. -/
theorem usable_of_kept (orderly : a.Orderly) {o : Observable} (mem : o ∈ a.kept) : a.Usable o := by
  refine orderly.usable_root (List.mem_append_left _ ?_)
  rw [orderly.owned]
  exact List.mem_append_left _ mem

theorem usable_node (orderly : a.Orderly) {o x : Observable} (usable : a.Usable o) (node : x ∈ o.nodes) :
    a.Usable x := by
  rcases usable with constant | ⟨mem, id, named, alive⟩
  · rw [nodes_of_constant constant] at node
    exact absurd node List.not_mem_nil
  · have xmem := orderly.catalogue.mem_of_node (.inl mem) node
    obtain ⟨j, -, xid⟩ := orderly.catalogue.named x xmem
    exact .inr ⟨xmem, j, xid, orderly.alive_node mem named alive node xid⟩

/-- No node is brought back to life by roots that could be used before. -/
theorem alive_of_usable (orderly : a.Orderly) {e : Engine} (usable : ∀ r ∈ e.roots, a.Usable r) {j : NodeId}
    (alive : e.alive j) : a.engine.alive j := by
  obtain ⟨r, root, y, node, yid⟩ := alive_iff.mp alive
  exact (orderly.usable_node (usable r root) node).alive yid

theorem known_of_usable {o : Observable} (usable : a.Usable o) : Known a.made o :=
  usable.elim .inr fun h => .inl h.1

/-- A client listens to what its handle says. -/
theorem handle_eq (orderly : a.Orderly) {l : ListenerId} {o : Observable} {i : NodeId}
    (registered : (l, .client) ∈ (a.engine.cell i).listeners) (mem : o ∈ a.made) (named : o.id? = some i) :
    (l, o) ∈ a.handles := by
  obtain ⟨-, x, handle, xid⟩ := orderly.handled i l registered
  have xmem := (orderly.issued l x handle).2.mem xid
  obtain rfl : x = o := orderly.catalogue.eq_of_id xmem mem (by rw [xid, named])
  exact handle

/-- Who listens to a node is there to be told: by the parts they have, or by their handles. -/
theorem staged_listeners (orderly : a.Orderly) {o : Observable} {i : NodeId} (mem : o ∈ a.made)
    (named : o.id? = some i) (reading : Reading) (failed : Nat) :
    Frame.Staged a.made a.handles (.dispatch o (.changed reading) (a.engine.cell i).listeners failed) := by
  refine ⟨⟨reading, rfl⟩, mem, orderly.links.once i, ?_, ?_⟩
  · intro l y relay
    obtain ⟨ymem, j, yid, p, zipped, pid⟩ := ((orderly.links.relays y l i).mp relay).resolve_right not_false
    have part := (List.of_mem_zip zipped).1
    have pmem := (orderly.catalogue.known_part (.inl ymem) part).mem pid
    obtain rfl : p = o := orderly.catalogue.eq_of_id pmem mem (by rw [pid, named])
    exact ⟨ymem, part⟩
  · intro l client
    exact orderly.handle_eq client mem named

/-- Only what is under way, what is owned and what readings are known of has changed. -/
theorem restage (orderly : a.Orderly) (made : a'.made = a.made) (handles : a'.handles = a.handles)
    (removed : a'.removed = a.removed) (nextNode : a'.engine.nextNode = a.engine.nextNode)
    (nextListener : a'.engine.nextListener = a.engine.nextListener) (lists : a'.engine.lists = a.engine.lists)
    (connected : a'.engine.connected = a.engine.connected)
    (listeners : ∀ i, (a'.engine.cell i).listeners = (a.engine.cell i).listeners)
    (held : ∀ i, (a'.engine.cell i).held = (a.engine.cell i).held)
    (current : ∀ l, .list l ∈ a.made → a'.engine.alive l.id →
      (a'.engine.cell l.id).baseline = .truth (a'.engine.features.satisfy l.descriptor))
    (owned : a'.engine.owned = a'.kept ++ a'.watcher.cache.map fun entry => .condition entry.2)
    (known : ∀ o ∈ a'.engine.owned, Known a.made o)
    (frames : ∀ f ∈ a'.engine.frames, f.Staged a.made a.handles) : a'.Orderly where
  catalogue := by rw [made, nextNode]; exact orderly.catalogue
  connected := connected.trans orderly.connected
  links := by rw [made]; exact orderly.links.congr (Nat.le_of_eq nextListener.symm) listeners held
  listsOnce := by rw [lists]; exact orderly.listsOnce
  lists := by rw [lists, made]; exact orderly.lists
  current := by rw [made]; exact current
  owned := owned
  known := by rw [made]; exact known
  frames := by rw [made, handles]; exact frames
  handled i := by rw [listeners, removed, handles]; exact orderly.handled i
  issued := by rw [handles, nextListener, made]; exact orderly.issued
  foreign l o handle i := by rw [listeners]; exact orderly.foreign l o (handles ▸ handle) i
  handlesOnce := by rw [handles]; exact orderly.handlesOnce
  inForce l o handle i := by rw [listeners, removed]; exact orderly.inForce l o (handles ▸ handle) i
  removedOnce := by rw [removed]; exact orderly.removedOnce
  removed := by rw [removed, handles]; exact orderly.removed

/-- What is kept alive could be used before, if what clients own and what is under way could. -/
theorem usable_roots {e : Engine} (owned : ∀ o ∈ e.owned, a.Usable o)
    (framed : ∀ f ∈ e.frames, ∀ o ∈ f.owned, a.Usable o) : ∀ r ∈ e.roots, a.Usable r := by
  intro r root
  rcases List.mem_append.mp root with mine | staged
  · exact owned r mine
  · obtain ⟨f, mem, owns⟩ := List.mem_flatMap.mp staged
    exact framed f mem r owns

theorem usable_owned (orderly : a.Orderly) : ∀ o ∈ a.engine.owned, a.Usable o := fun _ mine =>
  orderly.usable_root (List.mem_append_left _ mine)

/-- What is under way refers to what was made and can be used. -/
theorem sound (orderly : a.Orderly) : ∀ f ∈ a.engine.frames, a.Sound f := fun f mem =>
  ⟨orderly.frames f mem, fun _ owns =>
    orderly.usable_root (List.mem_append_right _ (List.mem_flatMap.mpr ⟨f, mem, owns⟩))⟩

/-- Clients let go of things, or take hold of things they can have. -/
theorem reown (orderly : a.Orderly) (made : a'.made = a.made) (handles : a'.handles = a.handles)
    (removed : a'.removed = a.removed) (engine : a'.engine = { a.engine with owned := a'.engine.owned })
    (owned : a'.engine.owned = a'.kept ++ a'.watcher.cache.map fun entry => .condition entry.2)
    (usable : ∀ o ∈ a'.engine.owned, a.Usable o) : a'.Orderly := by
  have roots : ∀ r ∈ a'.engine.roots, a.Usable r := by
    refine usable_roots usable fun f mem => (orderly.sound f ?_).2
    rw [engine] at mem
    exact mem
  refine orderly.restage made handles removed ?_ ?_ ?_ ?_ ?_ ?_ ?_ owned
    (fun o mem => known_of_usable (usable o mem)) ?_
  · rw [engine]
  · rw [engine]
  · rw [engine]
  · rw [engine]
  · intro i
    rw [engine]
    rfl
  · intro i
    rw [engine]
    rfl
  · intro l mem alive
    have before := orderly.current l mem (orderly.alive_of_usable roots alive)
    rw [engine]
    exact before
  · rw [engine]
    exact orderly.frames

/-- Whatever clients keep, they could have it before, and so could the cache. -/
theorem usable_kept (orderly : a.Orderly) {kept : List Observable} (usable : ∀ o ∈ kept, a.Usable o) :
    ∀ o ∈ (a.keep kept).engine.owned, a.Usable o := by
  intro o mem
  rcases List.mem_append.mp mem with mine | cached
  · exact usable o mine
  · exact orderly.usable_owned o (orderly.owned ▸ List.mem_append_right _ cached)

theorem usable_uncached (orderly : a.Orderly) : ∀ o ∈ (a.act .clearCache).engine.owned, a.Usable o := by
  intro o mem
  apply orderly.usable_owned o
  rw [orderly.owned]
  exact List.mem_append_left _ ((List.append_nil a.kept) ▸ mem)

theorem keep (orderly : a.Orderly) {kept : List Observable} (usable : ∀ o ∈ kept, a.Usable o) :
    (a.keep kept).Orderly :=
  orderly.reown rfl rfl rfl rfl rfl (orderly.usable_kept usable)

theorem clearCache (orderly : a.Orderly) : (a.act .clearCache).Orderly :=
  orderly.reown rfl rfl rfl rfl rfl orderly.usable_uncached

/-- The lists that change when the environment is set are live. -/
theorem sound_refresh (orderly : a.Orderly) (features : Media.Features) :
    a.Sound (.refresh ({ a.engine with features } : Engine).changedLists) := by
  have staged :
      ∀ change ∈ ({ a.engine with features } : Engine).changedLists, .list change.1 ∈ a.made := fun change mem =>
    (orderly.lists change.1).mp (Engine.mem_changedLists.mp mem).1.1
  refine ⟨⟨Engine.changedLists_once orderly.listsOnce, staged⟩, fun o owns => ?_⟩
  obtain ⟨change, mem, rfl⟩ := List.mem_map.mp owns
  exact .inr ⟨staged change mem, change.1.id, rfl, (Engine.mem_changedLists.mp mem).1.2⟩

theorem features_update (a : Audience) (features : Media.Features) :
    (a.act (.update features)).engine.features = features := by
  show (a.engine.update features).features = features
  rw [Engine.update_eq]
  exact (Engine.noteValues_stage _ _).1.features

theorem owned_update (a : Audience) (features : Media.Features) :
    (a.act (.update features)).engine.owned = a.engine.owned := by
  show (a.engine.update features).owned = a.engine.owned
  rw [Engine.update_eq]
  exact (Engine.noteValues_stage _ _).1.owned

theorem frames_update (a : Audience) (features : Media.Features) :
    (a.act (.update features)).engine.frames =
      .refresh ({ a.engine with features } : Engine).changedLists :: a.engine.frames := by
  show (a.engine.update features).frames = _
  rw [Engine.update_eq]
  exact congrArg _ (Engine.noteValues_stage _ _).1.frames

theorem sound_update (orderly : a.Orderly) (features : Media.Features) :
    ∀ f ∈ (a.act (.update features)).engine.frames, a.Sound f := by
  rw [frames_update]
  exact List.forall_mem_cons.mpr ⟨orderly.sound_refresh features, orderly.sound⟩

/-- The environment is set. -/
theorem update (orderly : a.Orderly) (features : Media.Features) : (a.act (.update features)).Orderly := by
  let e : Engine := { a.engine with features }
  obtain ⟨stage, issued⟩ := Engine.noteValues_stage e e.changedLists
  have owned := owned_update a features
  have sound := orderly.sound_update features
  have usable : ∀ r ∈ (a.act (.update features)).engine.roots, a.Usable r :=
    usable_roots (owned ▸ orderly.usable_owned) fun f mem => (sound f mem).2
  refine orderly.restage rfl rfl rfl stage.nextNode issued stage.lists stage.connected
    (fun i => (Engine.cell_noteValues e _ i).1) (fun i => (Engine.cell_noteValues e _ i).2.1) ?_
    (owned.trans orderly.owned) (owned ▸ orderly.known) fun f mem => (sound f mem).1
  intro l mem alive
  have before := orderly.current l mem (orderly.alive_of_usable usable alive)
  have live : e.alive l.id := orderly.alive_of_usable usable alive
  obtain ⟨-, -, elsewhere, here⟩ := Engine.cell_noteValues e e.changedLists l.id
  have same : ∀ change ∈ e.changedLists, change.1.id = l.id → change.1 = l := by
    intro change listed hit
    have eq := orderly.catalogue.eq_of_id ((orderly.sound_refresh features).1.2 change listed) mem (congrArg some hit)
    simpa using eq
  rw [features_update]
  by_cases changed : features.satisfy l.descriptor = e.lastValue l
  · refine (elsewhere fun change listed hit => ?_).trans ?_
    · obtain ⟨-, value, other⟩ := Engine.mem_changedLists.mp listed
      rw [same change listed hit] at value other
      exact other (value.trans changed)
    · rw [changed]
      have known : (e.cell l.id).baseline = .truth (a.engine.features.satisfy l.descriptor) := before
      rw [Engine.lastValue, known]
      cases a.engine.features.satisfy l.descriptor <;> rfl
  · refine here _ ⟨(l, features.satisfy l.descriptor), ?_, rfl⟩ fun change listed hit => ?_
    · exact Engine.mem_changedLists.mpr ⟨⟨(orderly.lists l).mpr mem, live⟩, rfl, changed⟩
    · rw [(Engine.mem_changedLists.mp listed).2.1, same change listed hit]

/-- A live observable tells everyone who listens to it. -/
theorem sound_dispatch (orderly : a.Orderly) {o : Observable} {i : NodeId} (mem : o ∈ a.made) (named : o.id? = some i)
    (alive : a.engine.alive i) (reading : Reading) :
    a.Sound (.dispatch o (.changed reading) (a.engine.cell i).listeners 0) := by
  refine ⟨orderly.staged_listeners mem named reading 0, fun x owns => ?_⟩
  obtain rfl := List.mem_singleton.mp owns
  exact .inr ⟨mem, i, named, alive⟩

/-- Something under way goes on. -/
theorem reframe (orderly : a.Orderly) (heard : List (ListenerId × Reading)) {frames : List Frame} {failures : Nat}
    (sound : ∀ f ∈ frames, a.Sound f) :
    ({ a.withEngine { a.engine with frames, failures } with heard } : Audience).Orderly := by
  refine orderly.restage rfl rfl rfl rfl rfl rfl rfl (fun _ => rfl) (fun _ => rfl) ?_ orderly.owned orderly.known
    fun f mem => (sound f mem).1
  intro l mem alive
  refine orderly.current l mem (orderly.alive_of_usable (usable_roots ?_ fun f mem => (sound f mem).2) alive)
  exact orderly.usable_owned

/-- The reading that the listeners of something other than a list know of is noted. -/
theorem note (orderly : a.Orderly) {o : Observable} {i : NodeId} (mem : o ∈ a.made) (named : o.id? = some i)
    (whole : o.isPlain = false) (reading : Reading) :
    (a.withEngine (a.engine.modifyCell i fun cell => { cell with baseline := reading })).Orderly := by
  have engine : (a.withEngine (a.engine.modifyCell i fun cell => { cell with baseline := reading })).engine =
      a.engine.modifyCell i fun cell => { cell with baseline := reading } := rfl
  refine orderly.restage rfl rfl rfl rfl rfl rfl rfl ?_ ?_ ?_ orderly.owned orderly.known orderly.frames
  · intro j
    rw [engine, Engine.cell_modifyCell]
    split <;> rfl
  · intro j
    rw [engine, Engine.cell_modifyCell]
    split <;> rfl
  · intro l listed alive
    have other : i ≠ l.id := by
      intro same
      obtain rfl : o = .list l := orderly.catalogue.eq_of_id mem listed (by rw [named, same]; rfl)
      contradiction
    rw [engine, Engine.cell_modifyCell, if_neg other]
    exact orderly.current l listed alive

theorem sound_finished (orderly : a.Orderly) {e' : Engine} {failing : Bool} (finished : a.engine.Finished failing e') :
    ∀ f ∈ e'.frames, a.Sound f := by
  have sound := orderly.sound
  cases finished with
  | returned frames =>
    rw [frames, List.forall_mem_cons, List.forall_mem_cons] at sound
    obtain ⟨-, calling, older⟩ := sound
    exact List.forall_mem_cons.mpr ⟨calling, older⟩
  | ended frames =>
    rw [frames, List.forall_mem_cons] at sound
    exact sound.2

/-- A client listener ends. -/
theorem finish (orderly : a.Orderly) {e' : Engine} {failing : Bool} (finished : a.engine.Finished failing e') :
    (a.withEngine e').Orderly := by
  have sound := orderly.sound_finished finished
  cases finished with
  | returned => exact orderly.reframe a.heard sound
  | ended => exact orderly.reframe a.heard sound

theorem sound_stepped (orderly : a.Orderly) {e' : Engine} (stepped : a.engine.Stepped e') :
    ∀ f ∈ e'.frames, a.Sound f := by
  have sound := orderly.sound
  cases stepped with
  | refreshed frames =>
    rw [frames, List.forall_mem_cons] at sound
    exact sound.2
  | stale frames other =>
    rw [frames, List.forall_mem_cons] at sound
    exact List.forall_mem_cons.mpr ⟨sound.1.tail_refresh, sound.2⟩
  | @told l now pending rest frames same =>
    rw [frames, List.forall_mem_cons] at sound
    have mem : .list l ∈ a.made := sound.1.1.2 (l, now) List.mem_cons_self
    have usable : a.Usable (.list l) := sound.1.2 _ List.mem_cons_self
    have telling := orderly.sound_dispatch mem rfl (usable.alive rfl) (.truth now)
    exact List.forall_mem_cons.mpr ⟨telling, List.forall_mem_cons.mpr ⟨sound.1.tail_refresh, sound.2⟩⟩
  | dispatched frames =>
    rw [frames, List.forall_mem_cons] at sound
    exact sound.2
  | called frames =>
    rw [frames, List.forall_mem_cons] at sound
    exact List.forall_mem_cons.mpr ⟨⟨trivial, nofun⟩, List.forall_mem_cons.mpr ⟨sound.1.tail_dispatch, sound.2⟩⟩
  | passed frames idle =>
    rw [frames, List.forall_mem_cons] at sound
    exact List.forall_mem_cons.mpr ⟨sound.1.tail_dispatch, sound.2⟩
  | @reacted source o event listener pending failed rest id frames named alive due =>
    rw [frames, List.forall_mem_cons] at sound
    obtain ⟨mem, -⟩ := sound.1.1.2.2.2.1 listener o List.mem_cons_self
    have telling := orderly.sound_dispatch mem named alive (a.engine.reading o)
    exact List.forall_mem_cons.mpr ⟨telling, List.forall_mem_cons.mpr ⟨sound.1.tail_dispatch, sound.2⟩⟩

/-- The engine takes a step. -/
theorem advance (orderly : a.Orderly) (heard : List (ListenerId × Reading)) {e' : Engine}
    (stepped : a.engine.Stepped e') : ({ a.withEngine e' with heard } : Audience).Orderly := by
  have sound := orderly.sound_stepped stepped
  have before := orderly.sound
  cases stepped with
  | refreshed => exact orderly.reframe heard sound
  | stale => exact orderly.reframe heard sound
  | told => exact orderly.reframe heard sound
  | dispatched => exact orderly.reframe heard sound
  | called => exact orderly.reframe heard sound
  | passed => exact orderly.reframe heard sound
  | @reacted source o event listener pending failed rest id frames named alive due =>
    rw [frames, List.forall_mem_cons] at before
    obtain ⟨mem, part⟩ := before.1.1.2.2.2.1 listener o List.mem_cons_self
    exact (orderly.note mem named (Observable.not_isPlain_of_part part) (a.engine.reading o)).reframe heard sound

/-- What a client that listens comes to. -/
theorem subscribed (orderly : a.Orderly) {o : Observable} (known : Known a.made o) :
    Engine.Subscribed a.made (fun _ => False) (fun _ _ _ => False) a.engine o .client (a.engine.subscribe o .client).1
      (a.listen o).engine :=
  orderly.links.subscribed orderly.catalogue orderly.connected known .client

private theorem mem_handles_listen (orderly : a.Orderly) {o : Observable} (known : Known a.made o) {l : ListenerId}
    {x : Observable} :
    (l, x) ∈ (a.listen o).handles ↔ (l = a.engine.nextListener ∧ x = o) ∨ (l, x) ∈ a.handles := by
  show (l, x) ∈ (a.act (.listen o)).handles ↔ _
  rw [handles_listen, (orderly.subscribed known).listener_eq, List.mem_cons, Prod.mk.injEq]

/-- No node takes the registration of a client for its own. -/
theorem foreign_listen (orderly : a.Orderly) {o : Observable} (known : Known a.made o) {l : ListenerId} {x : Observable}
    (handle : (l, x) ∈ (a.listen o).handles) (i : NodeId) (y : Observable) :
    (l, .relay y) ∉ ((a.listen o).engine.cell i).listeners := by
  have subscribed := orderly.subscribed known
  intro relay
  rcases (orderly.mem_handles_listen known).mp handle with ⟨rfl, rfl⟩ | handle
  · cases named : x.id? with
    | some j =>
      have same := subscribed.target_eq named (subscribed.listener_eq.symm ▸ relay)
      contradiction
    | none =>
      have unchanged : (a.listen x).engine = a.engine.newListener.2 :=
        congrArg Prod.snd (Engine.subscribe_constant a.engine named .client)
      rw [unchanged] at relay
      exact absurd (orderly.links.issued i _ relay) (Nat.lt_irrefl _)
  · obtain ⟨added, same, new⟩ := subscribed.joined.listeners i
    rw [same] at relay
    rcases List.mem_append.mp relay with old | added
    · exact orderly.foreign l x handle i y old
    · exact absurd (orderly.issued l x handle).1 (Nat.not_lt_of_le (new _ added))

/-- A client listens. -/
theorem listen (orderly : a.Orderly) {o : Observable} (usable : a.Usable o) : (a.act (.listen o)).Orderly := by
  have known := known_of_usable usable
  have subscribed := orderly.subscribed known
  have joined := subscribed.joined
  have handles : ∀ {l x}, (l, x) ∈ (a.listen o).handles ↔ _ := orderly.mem_handles_listen known
  have fresh : ∀ l x, (l, x) ∈ a.handles → l ≠ a.engine.nextListener := fun l x handle =>
    Nat.ne_of_lt (orderly.issued l x handle).1
  show (a.listen o).Orderly
  refine
    { catalogue := ?catalogue, connected := joined.stage.connected.trans orderly.connected, links := ?links
      listsOnce := ?listsOnce, lists := ?lists, current := ?current
      owned := joined.stage.owned.trans orderly.owned, known := ?known, frames := ?frames, handled := ?handled
      issued := ?issued, foreign := fun _ _ => orderly.foreign_listen known, handlesOnce := ?handlesOnce
      inForce := ?inForce, removedOnce := orderly.removedOnce, removed := ?removed }
  case catalogue =>
    rw [joined.stage.nextNode]
    exact orderly.catalogue
  case links =>
    exact subscribed.linked.loose_congr fun x h j => by simp
  case listsOnce =>
    rw [joined.stage.lists]
    exact orderly.listsOnce
  case lists =>
    rw [joined.stage.lists]
    exact orderly.lists
  case current =>
    intro l mem alive
    rw [joined.baseline_of_isPlain mem rfl rfl, joined.stage.features]
    exact orderly.current l mem (joined.stage.alive ▸ alive)
  case known =>
    rw [joined.stage.owned]
    exact orderly.known
  case frames =>
    rw [joined.stage.frames]
    exact fun f mem => (orderly.frames f mem).mono (List.Subset.refl _) (List.subset_cons_self _ _)
  case handled =>
    intro i l client
    rcases subscribed.clients i l client with old | ⟨-, new, named⟩
    · obtain ⟨here, x, handle, xid⟩ := orderly.handled i l old
      exact ⟨here, x, handles.mpr (.inr handle), xid⟩
    · rw [subscribed.listener_eq] at new
      refine ⟨fun gone => ?_, o, handles.mpr (.inl ⟨new, rfl⟩), named⟩
      obtain ⟨x, handle⟩ := orderly.removed l gone
      exact fresh l x handle new
  case issued =>
    intro l x handle
    rcases handles.mp handle with ⟨rfl, rfl⟩ | handle
    · exact ⟨subscribed.issued, known⟩
    · exact ⟨Nat.lt_of_lt_of_le (orderly.issued l x handle).1 joined.issued, (orderly.issued l x handle).2⟩
  case handlesOnce =>
    show ((a.act (.listen o)).handles.map Prod.fst).Nodup
    rw [handles_listen, subscribed.listener_eq, List.map_cons, List.nodup_cons]
    refine ⟨fun mem => ?_, orderly.handlesOnce⟩
    obtain ⟨⟨l, x⟩, handle, same⟩ := List.mem_map.mp mem
    exact fresh l x handle same
  case inForce =>
    intro l x handle i xid
    rcases handles.mp handle with ⟨rfl, rfl⟩ | handle
    · exact .inr (subscribed.listener_eq ▸ subscribed.mem i xid)
    · exact (orderly.inForce l x handle i xid).imp_right joined.mem
  case removed =>
    intro l gone
    obtain ⟨x, handle⟩ := orderly.removed l gone
    exact ⟨x, handles.mpr (.inr handle)⟩

/-- What a client that leaves comes to. -/
theorem unsubscribed (orderly : a.Orderly) {o source : Observable} {listener : ListenerId} (known : Known a.made o)
    (handle : (listener, source) ∈ a.handles) :
    Engine.Unsubscribed a.made (fun _ _ _ => False) a.engine o listener (a.unlisten o listener).engine := by
  refine orderly.links.unsubscribed orderly.catalogue known fun j _ x holds => ?_
  exact orderly.foreign listener source handle j x ((orderly.links.relays x listener j).mpr (.inl holds))

/-- What a client takes off successfully is a registration of a client. -/
theorem client_of_unsubscribed (orderly : a.Orderly) {o source : Observable} {listener : ListenerId}
    (handle : (listener, source) ∈ a.handles) (found : (a.engine.unsubscribe o listener).1) :
    ∃ j, o.id? = some j ∧ (listener, .client) ∈ (a.engine.cell j).listeners := by
  obtain ⟨j, named, ⟨l, target⟩, mem, rfl⟩ := (Engine.unsubscribe_found a.engine o listener).mp found
  cases target with
  | client => exact ⟨j, named, mem⟩
  | relay x => exact absurd mem (orderly.foreign l source handle j x)

/-- A client takes a registration off an observable. -/
theorem unlisten (orderly : a.Orderly) {o source : Observable} {listener : ListenerId} (usable : a.Usable o)
    (handle : (listener, source) ∈ a.handles) : (a.act (.unlisten o listener)).Orderly := by
  have unsubscribed := orderly.unsubscribed (known_of_usable usable) handle
  have parted := unsubscribed.parted
  show (a.unlisten o listener).Orderly
  refine
    { catalogue := ?catalogue, connected := parted.stage.connected.trans orderly.connected, links := ?links
      listsOnce := ?listsOnce, lists := ?lists, current := ?current
      owned := parted.stage.owned.trans orderly.owned, known := ?known, frames := ?frames, handled := ?handled
      issued := ?issued, foreign := ?foreign, handlesOnce := orderly.handlesOnce, inForce := ?inForce
      removedOnce := ?removedOnce, removed := ?removed }
  case catalogue =>
    rw [parted.stage.nextNode]
    exact orderly.catalogue
  case links =>
    exact unsubscribed.linked.loose_congr fun x h j => by simp
  case listsOnce =>
    rw [parted.stage.lists]
    exact orderly.listsOnce
  case lists =>
    rw [parted.stage.lists]
    exact orderly.lists
  case current =>
    intro l mem alive
    rw [parted.baseline, parted.stage.features]
    exact orderly.current l mem (parted.stage.alive ▸ alive)
  case known =>
    rw [parted.stage.owned]
    exact orderly.known
  case frames =>
    rw [parted.stage.frames]
    exact orderly.frames
  case handled =>
    intro i l client
    obtain ⟨here, x, handle', xid⟩ := orderly.handled i l ((parted.listeners i).subset client)
    refine ⟨fun gone => ?_, x, handle', xid⟩
    rcases mem_removed_unlisten.mp gone with before | ⟨rfl, success⟩
    · exact here before
    · obtain ⟨j, named, mine⟩ := orderly.client_of_unsubscribed handle success
      obtain rfl : i = j := orderly.links.apart i j _ ((parted.listeners i).subset client) _ mine rfl
      exact unsubscribed.gone i named _ client rfl
  case issued =>
    intro l x handle'
    rw [parted.issued]
    exact orderly.issued l x handle'
  case foreign =>
    intro l x handle' i y relay
    exact orderly.foreign l x handle' i y ((parted.listeners i).subset relay)
  case inForce =>
    intro l x handle' i xid
    rcases orderly.inForce l x handle' i xid with gone | mine
    · exact .inl (mem_removed_unlisten.mpr (.inl gone))
    · by_cases leaving : l = listener ∧ o.id? = some i
      · obtain ⟨rfl, named⟩ := leaving
        have found := (Engine.unsubscribe_found a.engine o l).mpr ⟨i, named, _, mine, rfl⟩
        exact .inl (mem_removed_unlisten.mpr (.inr ⟨rfl, found⟩))
      · exact .inr (unsubscribed.clients i l mine leaving)
  case removedOnce =>
    show (if (a.engine.unsubscribe o listener).1 then listener :: a.removed else a.removed).Nodup
    split
    · next success =>
      obtain ⟨j, -, mine⟩ := orderly.client_of_unsubscribed handle success
      exact List.nodup_cons.mpr ⟨(orderly.handled j listener mine).1, orderly.removedOnce⟩
    · exact orderly.removedOnce
  case removed =>
    intro l gone
    rcases mem_removed_unlisten.mp gone with before | ⟨rfl, -⟩
    · exact orderly.removed l before
    · exact ⟨source, handle⟩

end Orderly

end Audience

end MediaWatch
