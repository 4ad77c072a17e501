import MediaWatch.Proofs.Audience.Order
import MediaWatch.Proofs.Condition.Identities

/-! # Making things

Whatever a client makes consists of things it can use and of new nodes, numbered from the next free
identity on, to which nobody listens yet. The catalogue grows by the new nodes, and everything that was in
order before still is.
-/

namespace MediaWatch

namespace Engine

/-- Nothing but the new lists and what is known of them changes. -/
theorem addLists_eq (e : Engine) (made : List MediaList) :
    e.addLists made = { e with cells := (e.addLists made).cells, lists := e.lists ++ made } := by
  induction made generalizing e with
  | nil => simp [addLists]
  | cons l rest ih =>
    apply (ih _).trans
    simp only [addLists, List.foldl_cons, modifyCell, List.append_assoc, List.cons_append, List.nil_append]

/-- Nobody listens to a new list, and what is known of it is its value. -/
theorem cell_addLists (e : Engine) (made : List MediaList) (i : NodeId) :
    ((e.addLists made).cell i).listeners = (e.cell i).listeners ∧
      ((e.addLists made).cell i).held = (e.cell i).held ∧
      ((∀ l ∈ made, l.id ≠ i) → ((e.addLists made).cell i).baseline = (e.cell i).baseline) ∧
      ∀ m ∈ made, m.id = i → (∀ l ∈ made, l.id = i → l = m) →
        ((e.addLists made).cell i).baseline = .truth (e.features.satisfy m.descriptor) := by
  induction made generalizing e with
  | nil => simp [addLists]
  | cons l rest ih =>
    have step : e.addLists (l :: rest) = Engine.addLists
        { e.modifyCell l.id fun cell => { cell with baseline := .truth (e.features.satisfy l.descriptor) } with
          lists := e.lists ++ [l] } rest := rfl
    have first : ({ e.modifyCell l.id fun cell =>
          { cell with baseline := .truth (e.features.satisfy l.descriptor) } with
        lists := e.lists ++ [l] } : Engine).cell i =
        if l.id = i then { e.cell i with baseline := .truth (e.features.satisfy l.descriptor) } else e.cell i :=
      cell_modifyCell e l.id (fun cell => { cell with baseline := .truth (e.features.satisfy l.descriptor) }) i
    obtain ⟨listeners, held, elsewhere, here⟩ := ih
      { e.modifyCell l.id fun cell => { cell with baseline := .truth (e.features.satisfy l.descriptor) } with
        lists := e.lists ++ [l] }
    rw [step]
    refine ⟨?_, ?_, ?_, ?_⟩
    · rw [listeners, first]
      split <;> rfl
    · rw [held, first]
      split <;> rfl
    · intro others
      rw [elsewhere fun m mem => others m (List.mem_cons_of_mem _ mem), first, if_neg (others l List.mem_cons_self)]
    · intro m mem hit once
      by_cases later : ∃ n ∈ rest, n.id = i
      · obtain ⟨n, later, hits⟩ := later
        obtain rfl : n = m := once n (List.mem_cons_of_mem _ later) hits
        exact here n later hit fun k mem => once k (List.mem_cons_of_mem _ mem)
      · have others : ∀ n ∈ rest, n.id ≠ i := fun n mem hits => later ⟨n, mem, hits⟩
        obtain rfl : m = l := (List.mem_cons.mp mem).resolve_right fun later => others m later hit
        rw [elsewhere others, first, if_pos hit]

end Engine

namespace Audience

/-- An observable made of new nodes and of what its maker can use, in a watcher that is otherwise the same. -/
structure Making (a : Audience) (o : Observable) (w : Watcher) : Prop where
  usable : ∀ y ∈ o.nodes, a.Usable y ∨ y ∈ o.nodesFrom a.engine.nextNode
  numbered : Numbered a.engine.nextNode w.engine.nextNode (o.nodesFrom a.engine.nextNode)
  engine : ∃ ls, w.engine = ({ a.engine with nextNode := w.engine.nextNode } : Engine).addLists ls ∧ ls.Nodup ∧
    ∀ l, l ∈ ls ↔ .list l ∈ o.nodesFrom a.engine.nextNode
  cache : ∀ entry ∈ w.cache, entry ∈ a.watcher.cache ∨ .condition entry.2 = o

namespace Making

variable {a : Audience} {o y : Observable} {w : Watcher}

theorem newNode (making : Making a o w) (new : y ∈ o.nodesFrom a.engine.nextNode) {i : NodeId}
    (named : y.id? = some i) : a.engine.nextNode ≤ i := by
  obtain ⟨id, same, above, -⟩ := making.numbered.range y new
  rw [named, Option.some.injEq] at same
  exact same ▸ above

/-- The engine only gets new nodes, lists and owners. -/
theorem engine_eq (making : Making a o w) : (a.gain o w).engine =
    { a.engine with
      nextNode := w.engine.nextNode, cells := w.engine.cells, lists := w.engine.lists
      owned := (a.gain o w).engine.owned } := by
  obtain ⟨ls, engine, -⟩ := making.engine
  show { w.engine with owned := (a.gain o w).engine.owned } = _
  rw [engine, Engine.addLists_eq]

theorem frames (making : Making a o w) : (a.gain o w).engine.frames = a.engine.frames := by rw [making.engine_eq]

theorem features (making : Making a o w) : (a.gain o w).engine.features = a.engine.features := by rw [making.engine_eq]

theorem connected (making : Making a o w) : (a.gain o w).engine.connected = a.engine.connected := by
  rw [making.engine_eq]

theorem nextListener (making : Making a o w) : (a.gain o w).engine.nextListener = a.engine.nextListener := by
  rw [making.engine_eq]

theorem listeners (making : Making a o w) (i : NodeId) :
    ((a.gain o w).engine.cell i).listeners = (a.engine.cell i).listeners := by
  obtain ⟨ls, engine, -⟩ := making.engine
  show (w.engine.cell i).listeners = _
  rw [engine]
  exact (Engine.cell_addLists _ ls i).1

theorem held (making : Making a o w) (i : NodeId) :
    ((a.gain o w).engine.cell i).held = (a.engine.cell i).held := by
  obtain ⟨ls, engine, -⟩ := making.engine
  show (w.engine.cell i).held = _
  rw [engine]
  exact (Engine.cell_addLists _ ls i).2.1

/-- What is known of the nodes there were is what it was. -/
theorem baseline_old (making : Making a o w) {i : NodeId} (below : i < a.engine.nextNode) :
    ((a.gain o w).engine.cell i).baseline = (a.engine.cell i).baseline := by
  obtain ⟨ls, engine, -, mem_ls⟩ := making.engine
  show (w.engine.cell i).baseline = _
  rw [engine]
  refine (Engine.cell_addLists _ ls i).2.2.1 fun l listed same => ?_
  exact absurd below (Nat.not_lt_of_le (making.newNode ((mem_ls l).mp listed) (congrArg some same)))

/-- What is known of a new list is its value. -/
theorem baseline_new (making : Making a o w) {l : MediaList} (new : .list l ∈ o.nodesFrom a.engine.nextNode) :
    ((a.gain o w).engine.cell l.id).baseline = .truth (a.engine.features.satisfy l.descriptor) := by
  obtain ⟨ls, engine, -, mem_ls⟩ := making.engine
  show (w.engine.cell l.id).baseline = _
  rw [engine]
  refine (Engine.cell_addLists _ ls l.id).2.2.2 l ((mem_ls l).mpr new) rfl fun m listed same => ?_
  have eq := List.inj_on_of_nodup_map making.numbered.once ((mem_ls m).mp listed) new (congrArg some same)
  exact Observable.list.inj eq

theorem mem_lists (making : Making a o w) {l : MediaList} :
    l ∈ (a.gain o w).engine.lists ↔ l ∈ a.engine.lists ∨ .list l ∈ o.nodesFrom a.engine.nextNode := by
  obtain ⟨ls, engine, -, mem_ls⟩ := making.engine
  show l ∈ w.engine.lists ↔ _
  rw [engine, Engine.addLists_eq, List.mem_append, mem_ls]

end Making

namespace Orderly

variable {a : Audience}

/-- Nobody listens to what is not made yet. -/
theorem unused (orderly : a.Orderly) {i : NodeId} (new : a.engine.nextNode ≤ i) : (a.engine.cell i).listeners = [] := by
  have made : ∀ o ∈ a.made, o.id? = some i → False := by
    intro o mem named
    obtain ⟨id, below, same⟩ := orderly.catalogue.named o mem
    rw [named, Option.some.injEq] at same
    exact absurd (same ▸ below) (Nat.not_lt_of_le new)
  refine List.eq_nil_iff_forall_not_mem.mpr fun ⟨l, target⟩ mem => ?_
  cases target with
  | client =>
    obtain ⟨-, o, handle, named⟩ := orderly.handled i l mem
    exact made o ((orderly.issued l o handle).2.mem named) named
  | relay y =>
    obtain ⟨ymem, _, _, p, zipped, pid⟩ := ((orderly.links.relays y l i).mp mem).resolve_right not_false
    have known := orderly.catalogue.known_part (.inl ymem) (List.of_mem_zip zipped).1
    exact made p (known.mem pid) pid

theorem id_lt (orderly : a.Orderly) {o : Observable} {i : NodeId} (mem : o ∈ a.made) (named : o.id? = some i) :
    i < a.engine.nextNode := by
  obtain ⟨id, below, same⟩ := orderly.catalogue.named o mem
  rw [named, Option.some.injEq] at same
  exact same ▸ below

/-- The catalogue grows by what is new. -/
theorem catalogue_gain (orderly : a.Orderly) {o : Observable} {w : Watcher} (making : Making a o w) :
    Catalogue (a.gain o w).made w.engine.nextNode where
  named y mem := by
    rcases List.mem_append.mp mem with old | new
    · obtain ⟨id, below, named⟩ := orderly.catalogue.named y old
      exact ⟨id, Nat.lt_of_lt_of_le below making.numbered.le, named⟩
    · obtain ⟨id, named, -, below⟩ := making.numbered.range y new
      exact ⟨id, below, named⟩
  once := by
    show ((a.made ++ o.nodesFrom a.engine.nextNode).map Observable.id?).Nodup
    rw [List.map_append, List.nodup_append]
    refine ⟨orderly.catalogue.once, making.numbered.once, ?_⟩
    intro i old j new same
    obtain ⟨x, hx, rfl⟩ := List.mem_map.mp old
    obtain ⟨y, hy, rfl⟩ := List.mem_map.mp new
    obtain ⟨id, named, above, -⟩ := making.numbered.range y hy
    exact absurd (orderly.id_lt hx (same.trans named)) (Nat.not_lt_of_le above)
  parts y mem p part := by
    show p ∈ a.made ++ o.nodesFrom a.engine.nextNode ∨ p.id? = none
    rcases List.mem_append.mp mem with old | new
    · exact (orderly.catalogue.parts y old p part).imp_left (List.mem_append_left _)
    · cases named : p.id? with
      | none => exact .inr rfl
      | some id =>
        have inner : p ∈ y.nodes := Observable.mem_nodes.mpr
          (.inl ⟨p, part, Observable.mem_nodes_self named⟩)
        have node : p ∈ o.nodes := Observable.nodes_trans inner (List.mem_of_mem_filter new)
        rcases making.usable p node with usable | new
        · exact .inl (List.mem_append_left _ ((known_of_usable usable).mem named))
        · exact .inl (List.mem_append_right _ new)

/-- What clients own afterwards is the new thing, or could be used before. -/
theorem owned_gain (orderly : a.Orderly) {o : Observable} {w : Watcher} (making : Making a o w) :
    ∀ r ∈ (a.gain o w).engine.owned, r = o ∨ a.Usable r := by
  intro r mine
  have owned := orderly.usable_owned
  rw [orderly.owned] at owned
  rcases List.mem_append.mp mine with kept | compiled
  · exact (List.mem_cons.mp kept).imp_right fun mem => owned r (List.mem_append_left _ mem)
  · obtain ⟨entry, mem, rfl⟩ := List.mem_map.mp compiled
    rcases making.cache entry mem with old | new
    · exact .inr (owned _ (List.mem_append_right _ (List.mem_map_of_mem old)))
    · exact .inl new

/-- Everything that was made before and is alive afterwards was alive before. -/
theorem alive_gain (orderly : a.Orderly) {o y : Observable} {w : Watcher} (making : Making a o w) (mem : y ∈ a.made)
    {i : NodeId} (named : y.id? = some i) (alive : (a.gain o w).engine.alive i) : a.engine.alive i := by
  obtain ⟨r, root, x, node, xid⟩ := alive_iff.mp alive
  have whole : r = o ∨ a.Usable r := by
    rcases List.mem_append.mp root with mine | framed
    · exact orderly.owned_gain making r mine
    · exact .inr (orderly.usable_root (List.mem_append_right _ (making.frames ▸ framed)))
  have usable : a.Usable x := by
    rcases whole with rfl | whole
    · refine (making.usable x node).resolve_right fun new => ?_
      exact absurd (orderly.id_lt mem named) (Nat.not_lt_of_le (making.newNode new xid))
    · exact orderly.usable_node whole node
  exact usable.alive xid

/-- Making something leaves every reading what it is. -/
theorem reading_gain (orderly : a.Orderly) {o : Observable} {w : Watcher} (making : Making a o w) (x : Observable) :
    (a.gain o w).engine.reading x = a.engine.reading x :=
  Engine.reading_congr orderly.connected (making.connected.trans orderly.connected) making.features x

/-- What is known of the readings of what was made before is what it was. -/
theorem baseline_gain (orderly : a.Orderly) {o y : Observable} {w : Watcher} (making : Making a o w) (mem : y ∈ a.made)
    {i : NodeId} (named : y.id? = some i) : ((a.gain o w).engine.cell i).baseline = (a.engine.cell i).baseline :=
  making.baseline_old (orderly.id_lt mem named)

/-- The engine still keeps each list once. -/
theorem listsOnce_gain (orderly : a.Orderly) {o : Observable} {w : Watcher} (making : Making a o w) :
    (a.gain o w).engine.lists.Nodup := by
  obtain ⟨ls, engine, once, mem_ls⟩ := making.engine
  show w.engine.lists.Nodup
  rw [engine, Engine.addLists_eq, List.nodup_append]
  refine ⟨orderly.listsOnce, once, ?_⟩
  rintro l old m new rfl
  have below := orderly.id_lt ((orderly.lists l).mp old) rfl
  exact absurd below (Nat.not_lt_of_le (making.newNode ((mem_ls l).mp new) rfl))

/-- Every live list still knows its present value. -/
theorem current_gain (orderly : a.Orderly) {o : Observable} {w : Watcher} (making : Making a o w) {l : MediaList}
    (mem : .list l ∈ (a.gain o w).made) (alive : (a.gain o w).engine.alive l.id) :
    ((a.gain o w).engine.cell l.id).baseline = .truth ((a.gain o w).engine.features.satisfy l.descriptor) := by
  rw [making.features]
  rcases List.mem_append.mp mem with old | new
  · rw [orderly.baseline_gain making old rfl]
    exact orderly.current l old (orderly.alive_gain making old rfl alive)
  · exact making.baseline_new new

/-- What clients own afterwards was made, or is a constant. -/
theorem known_gain (orderly : a.Orderly) {o : Observable} {w : Watcher} (making : Making a o w) :
    ∀ r ∈ (a.gain o w).engine.owned, Known (a.gain o w).made r := by
  have more : a.made ⊆ (a.gain o w).made := List.subset_append_left _ _
  intro r mine
  rcases orderly.owned_gain making r mine with rfl | use
  · cases named : r.id? with
    | none => exact .inr named
    | some id =>
      rcases making.usable r (Observable.mem_nodes_self named) with use | new
      · exact (known_of_usable use).imp_left fun mem => more mem
      · exact .inl (List.mem_append_right _ new)
  · exact (known_of_usable use).imp_left fun mem => more mem

/-- Making something keeps everything in order. -/
theorem gain (orderly : a.Orderly) {o : Observable} {w : Watcher} (making : Making a o w) : (a.gain o w).Orderly := by
  have more : a.made ⊆ (a.gain o w).made := List.subset_append_left _ _
  refine
    { catalogue := orderly.catalogue_gain making, connected := making.connected.trans orderly.connected
      links := ?links, listsOnce := orderly.listsOnce_gain making, lists := ?lists
      current := fun _ => orderly.current_gain making, owned := rfl, known := orderly.known_gain making
      frames := ?frames, handled := ?handled, issued := ?issued, foreign := ?foreign
      handlesOnce := orderly.handlesOnce, inForce := ?inForce, removedOnce := orderly.removedOnce
      removed := orderly.removed }
  case links =>
    have links : a.engine.InOrder (a.gain o w).made := by
      refine orderly.links.extend more fun y mem => ?_
      refine (List.mem_append.mp mem).imp_right fun new i named => ?_
      exact orderly.unused (making.newNode new named)
    exact links.congr (Nat.le_of_eq making.nextListener.symm) making.listeners making.held
  case lists =>
    intro l
    rw [making.mem_lists, orderly.lists]
    exact List.mem_append.symm
  case frames =>
    rw [making.frames]
    exact fun f mem => (orderly.frames f mem).mono more (List.Subset.refl _)
  case handled =>
    intro i l client
    rw [making.listeners] at client
    exact orderly.handled i l client
  case issued =>
    intro l x handle
    rw [making.nextListener]
    exact (orderly.issued l x handle).imp_right fun known => known.imp_left fun mem => more mem
  case foreign =>
    intro l x handle i y
    rw [making.listeners]
    exact orderly.foreign l x handle i y
  case inForce =>
    intro l x handle i
    rw [making.listeners]
    exact orderly.inForce l x handle i

/-- What can be used has no new nodes. -/
theorem nodesFrom_usable (orderly : a.Orderly) {o : Observable} (usable : a.Usable o) :
    o.nodesFrom a.engine.nextNode = [] := by
  refine List.filter_eq_nil_iff.mpr fun y node => ?_
  have known := known_of_usable (orderly.usable_node usable node)
  have named := Observable.id?_of_mem_nodes node
  obtain ⟨id, below, yid⟩ := orderly.catalogue.named y (known.mem_of_isSome named)
  simpa [yid] using below

/-- Making a whole of things that can be used. -/
theorem making_whole (orderly : a.Orderly) {o : Observable} {w : Watcher} (named : o.id? = some a.engine.nextNode)
    (whole : o.isPlain = false) (usable : ∀ p ∈ o.parts, a.Usable p)
    (engine : w.engine = { a.engine with nextNode := a.engine.nextNode + 1 }) (cache : w.cache = a.watcher.cache) :
    Making a o w := by
  have new : o.nodesFrom a.engine.nextNode = [o] := by
    have parts : (o.parts.flatMap Observable.nodes).filter (fun y => y.id?.any (a.engine.nextNode ≤ ·)) = [] := by
      rw [List.filter_flatMap, List.flatMap_eq_nil_iff]
      exact fun p part => orderly.nodesFrom_usable (usable p part)
    rw [Observable.nodesFrom, Observable.nodes_eq, List.filter_append, parts]
    simp [Observable.self, named]
  refine ⟨fun y node => ?_, ?_, ⟨[], ?_, List.nodup_nil, fun l => ?_⟩, fun entry mem => .inl (cache ▸ mem)⟩
  · rcases Observable.mem_nodes.mp node with ⟨p, part, node⟩ | ⟨rfl, -⟩
    · exact .inl (orderly.usable_node (usable p part) node)
    · exact .inr (new ▸ List.mem_singleton_self _)
  · rw [new, engine]
    exact .single named
  · rw [engine]
    rfl
  · rw [new]
    refine ⟨fun never => absurd never List.not_mem_nil, fun mem => ?_⟩
    obtain rfl := List.mem_singleton.mp mem
    contradiction

private theorem making_watch (a : Audience) (descriptor : Text) :
    Making a (.list (a.watcher.newList descriptor).1) (a.watcher.newList descriptor).2 := by
  have new : Observable.nodesFrom a.engine.nextNode (.list (a.watcher.newList descriptor).1) =
      [.list (a.watcher.newList descriptor).1] := by
    simp [Observable.nodesFrom, Observable.nodes, Observable.id?, Watcher.newList, Engine.newList,
      Engine.newNode, engine]
  refine ⟨fun y node => ?_, ?_, ⟨[(a.watcher.newList descriptor).1], rfl, List.nodup_singleton _, fun l => ?_⟩,
    fun entry mem => .inl mem⟩
  · rw [new]
    exact .inr node
  · rw [new]
    exact .single rfl
  · rw [new]
    simp

/-- Compiling makes a condition of new nodes only. -/
theorem making_compile (a : Audience) (query : Text) :
    Making a (.condition (a.watcher.compile query).1) (a.watcher.compile query).2 := by
  have numbered := Condition.numbered_compile a.watcher.registry a.engine.nextNode query
  have computed : a.watcher.compile query = ((Condition.compile a.watcher.registry a.engine.nextNode query).1,
      a.watcher.onEngine fun e =>
        { e with nextNode := (Condition.compile a.watcher.registry a.engine.nextNode query).2 }.addLists
          (Condition.compile a.watcher.registry a.engine.nextNode query).1.lists) := rfl
  rw [computed]
  generalize Condition.compile a.watcher.registry a.engine.nextNode query = result at numbered ⊢
  obtain ⟨c, after⟩ := result
  have new : Observable.nodesFrom a.engine.nextNode (.condition c) = c.nodes := by
    refine List.filter_eq_self.mpr fun y mem => ?_
    obtain ⟨id, named, above, -⟩ := numbered.range y mem
    simpa [named] using above
  have next : (Engine.addLists { a.engine with nextNode := after } c.lists).nextNode = after := by
    rw [Engine.addLists_eq]
  refine ⟨fun y node => ?_, ?_, ⟨c.lists, ?_, ?_, fun l => ?_⟩, fun entry mem => .inl mem⟩
  · rw [new]
    exact .inr node
  · rw [new]
    show Numbered _ (Engine.addLists { a.engine with nextNode := after } c.lists).nextNode _
    rw [next]
    exact numbered
  · show Engine.addLists { a.engine with nextNode := after } c.lists = Engine.addLists
      { a.engine with nextNode := (Engine.addLists { a.engine with nextNode := after } c.lists).nextNode } c.lists
    rw [next]
  · rw [Condition.lists_eq]
    refine (List.Nodup.of_map _ numbered.once).filterMap fun x y l hx hy => ?_
    rw [Option.mem_def, Observable.list?_eq_some] at hx hy
    rw [hx, hy]
  · rw [new, Condition.lists_eq, List.mem_filterMap]
    constructor
    · rintro ⟨y, mem, same⟩
      rw [Observable.list?_eq_some] at same
      exact same ▸ mem
    · intro mem
      exact ⟨_, mem, Observable.list?_eq_some.mpr rfl⟩

/-- A query that was asked before is answered by the condition made then. -/
theorem making_query (orderly : a.Orderly) (query : Text) :
    Making a (.condition (a.watcher.query query).1) (a.watcher.query query).2 := by
  cases found : a.watcher.cache.find? query with
  | some c =>
    have computed : a.watcher.query query = (c, a.watcher) := by simp only [Watcher.query, found]
    rw [computed]
    have cached : .condition c ∈ a.engine.owned := by
      rw [orderly.owned]
      exact List.mem_append_right _ (List.mem_map.mpr ⟨_, Fields.mem_of_find? found, rfl⟩)
    have usable := orderly.usable_root (List.mem_append_left _ cached)
    have none := orderly.nodesFrom_usable usable
    refine ⟨fun y node => .inl (orderly.usable_node usable node), ?_, ⟨[], rfl, List.nodup_nil, fun l => ?_⟩,
      fun entry mem => .inl mem⟩
    · rw [none]
      exact .nil _
    · rw [none]
      exact ⟨nofun, nofun⟩
  | none =>
    have computed : a.watcher.query query = ((a.watcher.compile query).1,
        { (a.watcher.compile query).2 with
          cache := (a.watcher.compile query).2.cache.insert query (a.watcher.compile query).1 }) := by
      simp only [Watcher.query, found]
    rw [computed]
    have making := making_compile a query
    refine ⟨making.usable, making.numbered, making.engine, fun entry mem => ?_⟩
    rcases Fields.mem_insert mem with rfl | old
    · exact .inr rfl
    · exact making.cache entry old

/-- Simplifying makes groups only. -/
theorem making_simplify (orderly : a.Orderly) {c : Condition} (usable : a.Usable (.condition c)) :
    Making a (.condition (a.watcher.simplified c).1) (a.watcher.simplified c).2 := by
  have numbered := Condition.numbered_relabel a.engine.nextNode c.simplify
  have single : ∀ y, y.isGroup = false → y ∈ (Condition.relabel a.engine.nextNode c.simplify).1.nodes → a.Usable y := by
    intro y leaf mem
    refine orderly.usable_node usable (Condition.mem_nodes_of_simplify leaf c ?_)
    exact Condition.mem_nodes_of_relabel leaf a.engine.nextNode c.simplify mem
  have computed : a.watcher.simplified c = ((Condition.relabel a.engine.nextNode c.simplify).1,
      a.watcher.onEngine fun e => { e with nextNode := (Condition.relabel a.engine.nextNode c.simplify).2 }) := rfl
  rw [computed]
  generalize Condition.relabel a.engine.nextNode c.simplify = result at numbered single ⊢
  obtain ⟨d, after⟩ := result
  have new : Observable.nodesFrom a.engine.nextNode (.condition d) = d.nodes.filter Observable.isGroup := by
    refine List.filter_congr fun y mem => ?_
    cases group : y.isGroup with
    | true =>
      obtain ⟨id, named, above, -⟩ := numbered.range y (List.mem_filter.mpr ⟨mem, group⟩)
      simpa [named] using above
    | false =>
      have known := known_of_usable (single y group mem)
      obtain ⟨id, below, named⟩ := orderly.catalogue.named y
        (known.mem_of_isSome (Observable.id?_of_mem_nodes (o := .condition d) mem))
      simpa [named] using below
  refine ⟨fun y node => ?_, ?_, ⟨[], rfl, List.nodup_nil, fun l => ?_⟩, fun entry mem => .inl mem⟩
  · cases group : y.isGroup with
    | true => exact .inr (new ▸ List.mem_filter.mpr ⟨node, group⟩)
    | false => exact .inl (single y group node)
  · rw [new]
    exact numbered
  · rw [new]
    simp [Observable.isGroup]

end Orderly

/-- The moves that can be made, by what they come to. -/
inductive Acted (a : Audience) : Move → Audience → Prop
  | gained {m : Move} {o : Observable} {w : Watcher} (making : Making a o w) : Acted a m (a.gain o w)
  | uncached : Acted a .clearCache (a.act .clearCache)
  | configured {registry : Registry} : Acted a (.configure registry) (a.act (.configure registry))
  | kept {kept : List Observable} (usable : ∀ o ∈ kept, a.Usable o) : Acted a (.keep kept) (a.keep kept)
  | listened {o : Observable} (usable : a.Usable o) : Acted a (.listen o) (a.listen o)
  | left {o source : Observable} {listener : ListenerId} (usable : a.Usable o)
      (handle : (listener, source) ∈ a.handles) :
      Acted a (.unlisten o listener) (a.unlisten o listener)
  | set {features : Media.Features} : Acted a (.update features) (a.act (.update features))
  | ended {failing : Bool} {e' : Engine} (finished : a.engine.Finished failing e') :
      Acted a (.finish failing) (a.withEngine e')
  | stepped {e' : Engine} (stepped : a.engine.Stepped e') :
      Acted a .advance { a.withEngine e' with heard := a.heard ++ a.engine.calling?.toList }

theorem Acted.handles {a a' : Audience} {m : Move} (acted : a.Acted m a') : a.handles ⊆ a'.handles := by
  cases acted with
  | listened usable => exact List.subset_cons_self _ _
  | _ => exact List.Subset.refl _

theorem Acted.removed {a a' : Audience} {m : Move} (acted : a.Acted m a') : a.removed ⊆ a'.removed := by
  cases acted with
  | left usable handle => exact fun l gone => mem_removed_unlisten.mpr (.inl gone)
  | _ => exact List.Subset.refl _

namespace Orderly

variable {a : Audience}

/-- What a move that can be made comes to. -/
theorem acted (orderly : a.Orderly) {m : Move} (allowed : a.Allows m) : a.Acted m (a.act m) := by
  cases m with
  | watch descriptor => exact .gained (making_watch a descriptor)
  | leaf l inverted =>
    refine .gained (orderly.making_whole rfl rfl (fun p part => ?_) rfl rfl)
    obtain rfl := List.mem_singleton.mp part
    exact allowed.2
  | group junction cs =>
    refine .gained (orderly.making_whole rfl rfl (fun p part => ?_) rfl rfl)
    obtain ⟨c, mem, rfl⟩ := List.mem_map.mp part
    exact allowed.2 c mem
  | rules cs =>
    refine .gained (orderly.making_whole rfl rfl (fun p part => ?_) rfl rfl)
    obtain ⟨c, mem, rfl⟩ := List.mem_map.mp part
    exact allowed.2 c mem
  | compile query => exact .gained (making_compile a query)
  | query query => exact .gained (orderly.making_query query)
  | simplify c => exact .gained (orderly.making_simplify allowed.2)
  | clearCache => exact .uncached
  | configure registry => exact .configured
  | keep kept => exact .kept allowed.2
  | listen o => exact .listened allowed.2
  | unlisten o listener =>
    obtain ⟨usable, source, handle⟩ := allowed.2
    exact .left usable handle
  | update features => exact .set
  | finish failing => exact .ended (Engine.finished allowed failing)
  | advance =>
    obtain ⟨e', step⟩ := Option.isSome_iff_exists.mp allowed
    show a.Acted .advance a.advance
    rw [Audience.advance, step]
    exact .stepped (Engine.stepped step)

/-- Every move that can be made keeps everything in order. -/
theorem act (orderly : a.Orderly) {m : Move} (allowed : a.Allows m) : (a.act m).Orderly := by
  have acted := orderly.acted allowed
  generalize a.act m = a' at acted
  cases acted with
  | gained making => exact orderly.gain making
  | uncached => exact orderly.clearCache
  | configured =>
    exact orderly.restage rfl rfl rfl rfl rfl rfl rfl (fun _ => rfl) (fun _ => rfl) orderly.current orderly.owned
      orderly.known orderly.frames
  | kept usable => exact orderly.keep usable
  | listened usable => exact orderly.listen usable
  | left usable handle => exact orderly.unlisten usable handle
  | set => exact orderly.update _
  | ended finished => exact orderly.finish finished
  | stepped stepped => exact orderly.advance _ stepped

/-- No move brings anything back to life. -/
theorem alive_acted (orderly : a.Orderly) {m : Move} {a' : Audience} (acted : a.Acted m a') {y : Observable}
    (mem : y ∈ a.made) {i : NodeId} (named : y.id? = some i) (alive : a'.engine.alive i) : a.engine.alive i := by
  cases acted with
  | gained making => exact orderly.alive_gain making mem named alive
  | uncached =>
    exact orderly.alive_of_usable (usable_roots orderly.usable_uncached fun f mem => (orderly.sound f mem).2) alive
  | configured => exact alive
  | kept usable =>
    exact orderly.alive_of_usable (usable_roots (orderly.usable_kept usable) fun f mem => (orderly.sound f mem).2) alive
  | listened usable =>
    exact (orderly.subscribed (known_of_usable usable)).joined.stage.alive ▸ alive
  | left usable handle =>
    exact (orderly.unsubscribed (known_of_usable usable) handle).parted.stage.alive ▸ alive
  | @set features =>
    refine orderly.alive_of_usable (usable_roots ?_ fun f mem => (orderly.sound_update features f mem).2) alive
    exact owned_update a features ▸ orderly.usable_owned
  | ended finished =>
    refine orderly.alive_of_usable (usable_roots ?_ fun f mem => (orderly.sound_finished finished f mem).2) alive
    exact finished.owned ▸ orderly.usable_owned
  | stepped stepped =>
    refine orderly.alive_of_usable (usable_roots ?_ fun f mem => (orderly.sound_stepped stepped f mem).2) alive
    exact stepped.owned ▸ orderly.usable_owned

/-- What can be used after a move and was there before could be used before. -/
theorem usable_acted (orderly : a.Orderly) {m : Move} {a' : Audience} (acted : a.Acted m a')
    {o : Observable} (mem : o ∈ a.made) (after : a'.Usable o) : a.Usable o := by
  rcases after with constant | ⟨-, i, named, alive⟩
  · exact .inl constant
  · exact .inr ⟨mem, i, named, orderly.alive_acted acted mem named alive⟩

end Orderly

/-- At first everything is in order. -/
theorem orderly_start (features : Media.Features) (registry : Registry) : (start features registry).Orderly where
  catalogue := ⟨nofun, List.nodup_nil, nofun⟩
  connected := rfl
  links :=
    { issued := nofun, heldIssued := nofun, once := fun _ => List.nodup_nil, apart := nofun
      heldOnce := fun _ => List.nodup_nil
      relays := fun _ _ _ => ⟨nofun, fun linked => (linked.resolve_right not_false).elim nofun⟩
      silent := fun _ _ => rfl, full := nofun }
  listsOnce := List.nodup_nil
  lists _ := ⟨nofun, nofun⟩
  current := nofun
  owned := rfl
  known := nofun
  frames := nofun
  handled := nofun
  issued := nofun
  foreign := nofun
  handlesOnce := List.nodup_nil
  inForce := nofun
  removedOnce := List.nodup_nil
  removed := nofun

/-- Every history keeps everything in order. -/
theorem Run.orderly {sort : Audience → Move → Prop} {a b : Audience} {ms : List Move} (run : Run sort a ms b)
    (first : a.Orderly) : b.Orderly :=
  run.invariant (fun _ _ orderly allowed _ => orderly.act allowed) first

/-- Handles are kept. -/
theorem Run.handles {sort : Audience → Move → Prop} {a b : Audience} {ms : List Move} (run : Run sort a ms b)
    (first : a.Orderly) : a.handles ⊆ b.handles := by
  induction run with
  | nil a => exact List.Subset.refl _
  | cons allowed _ _ ih => exact List.Subset.trans (first.acted allowed).handles (ih (first.act allowed))

/-- What was taken off stays off. -/
theorem Run.removed {sort : Audience → Move → Prop} {a b : Audience} {ms : List Move} (run : Run sort a ms b)
    (first : a.Orderly) : a.removed ⊆ b.removed := by
  induction run with
  | nil a => exact List.Subset.refl _
  | cons allowed _ _ ih => exact List.Subset.trans (first.acted allowed).removed (ih (first.act allowed))

/-- What a handle is for can be used while it is alive. -/
theorem Run.usable_of_alive {sort : Audience → Move → Prop} {a b : Audience} {ms : List Move} (run : Run sort a ms b)
    (first : a.Orderly) {l : ListenerId} {o : Observable} {i : NodeId} (handle : (l, o) ∈ a.handles)
    (named : o.id? = some i) (alive : b.engine.alive i) : b.Usable o := by
  have known := ((run.orderly first).issued l o (run.handles first handle)).2
  exact .inr ⟨known.mem named, i, named, alive⟩

/-- The condition of a query can be listened to as soon as the query is compiled. -/
theorem Run.compile_listen {sort : Audience → Move → Prop} {features : Media.Features}
    {registry : Registry} {query : Text}
    (silent : ((start features registry).act (.compile query)).engine.step?.isNone)
    (sorted : ∀ a, ∀ m, (∀ features, m ≠ .update features) → sort a m) :
    Run sort (start features registry)
      [.compile query, .listen (.condition ((start features registry).watcher.compile query).1)]
      (((start features registry).act (.compile query)).act
        (.listen (.condition ((start features registry).watcher.compile query).1))) := by
  have compiled : Run sort (start features registry) [.compile query]
      ((start features registry).act (.compile query)) :=
    .single (allows_of_ready rfl) (sorted _ _ nofun)
  refine compiled.append (.single ⟨Option.isNone_iff_eq_none.mp silent, ?_⟩ (sorted _ _ nofun))
  exact (compiled.orderly (orderly_start features registry)).usable_of_kept List.mem_cons_self

/-- A condition for screens and paper. -/
def leaflet : Condition := ((start {} .standard).watcher.compile "screen, print".toList).1

def leafletMade : Audience := (start {} .standard).act (.compile "screen, print".toList)

def leafletHeard : Audience := leafletMade.act (.listen (.condition leaflet))

theorem leaflet_reached :
    Run Quiet (start {} .standard) [.compile "screen, print".toList, .listen (.condition leaflet)] leafletHeard :=
  .compile_listen (by decide +kernel) fun _ _ other features same => absurd same (other features)

theorem leaflet_handle : (0, .condition leaflet) ∈ leafletHeard.handles := by
  have listener : (leafletMade.engine.subscribe (.condition leaflet) .client).1 = 0 := by decide +kernel
  rw [leafletHeard, handles_listen, listener]
  exact List.mem_cons_self

end Audience

end MediaWatch
