import MediaWatch.Proofs.Engine.Links

/-! # Leaving

Leaving a node takes a registration off it, and if that was the last one, takes the node off all its
parts in the same way. Whatever is shared below, the links are in order afterwards, and nobody loses a
registration but the one who leaves and the nodes that fall silent.
-/

namespace MediaWatch.Engine

/-- Both ends of every link are there. -/
abbrev InOrder (e : Engine) (made : List Observable) : Prop :=
  e.Linked made (fun _ => False) (fun _ _ _ => False)

/-- The second engine has fewer registrations than the first: nodes that still have listeners keep what
they hold, and whatever readings were known of still are. -/
structure Parted (e e' : Engine) : Prop where
  stage : SameStage e e'
  issued : e'.nextListener = e.nextListener
  listeners : ∀ j, (e'.cell j).listeners.Sublist (e.cell j).listeners
  baseline : ∀ j, (e'.cell j).baseline = (e.cell j).baseline
  less : ∀ j, (e'.cell j).held = (e.cell j).held ∨ (e'.cell j).held = []
  kept : ∀ j, (e'.cell j).listeners ≠ [] → (e'.cell j).held = (e.cell j).held

/-- What leaving one observable comes to. -/
structure Unsubscribed (made : List Observable) (loose : Observable → ListenerId → NodeId → Prop) (e : Engine)
    (o : Observable) (listener : ListenerId) (e' : Engine) : Prop where
  parted : Parted e e'
  linked : e'.Linked made (fun _ => False) fun x h j => loose x h j ∧ ¬ (h = listener ∧ o.id? = some j)
  gone : ∀ j, o.id? = some j → ∀ x ∈ (e'.cell j).listeners, x.1 ≠ listener
  clients : ∀ j l, (l, .client) ∈ (e.cell j).listeners → ¬ (l = listener ∧ o.id? = some j) →
    (l, .client) ∈ (e'.cell j).listeners

/-- What leaving several observables, with one registration each, comes to. -/
structure UnsubscribedAll (made : List Observable) (loose : Observable → ListenerId → NodeId → Prop) (e : Engine)
    (ps : List Observable) (hs : List ListenerId) (e' : Engine) : Prop where
  parted : Parted e e'
  linked : e'.Linked made (fun _ => False) fun x h j => loose x h j ∧ ¬ ∃ p, (p, h) ∈ ps.zip hs ∧ p.id? = some j
  clients : ∀ j l, (l, .client) ∈ (e.cell j).listeners → (¬ ∃ p, (p, l) ∈ ps.zip hs ∧ p.id? = some j) →
    (l, .client) ∈ (e'.cell j).listeners

variable {made : List Observable} {next : NodeId} {loose : Observable → ListenerId → NodeId → Prop}
  {e e' e'' : Engine}

theorem holds_of_less (less : ∀ j, (e'.cell j).held = (e.cell j).held ∨ (e'.cell j).held = []) {o : Observable}
    {h : ListenerId} {j : NodeId} (held : e'.Holds made o h j) : e.Holds made o h j := by
  obtain ⟨mem, i, named, p, zipped, pid⟩ := held
  rcases less i with same | none
  · exact ⟨mem, i, named, p, same ▸ zipped, pid⟩
  · simp [none] at zipped

namespace Parted

theorem refl (e : Engine) : Parted e e where
  stage := .refl e
  issued := rfl
  listeners _ := .refl _
  baseline _ := rfl
  less _ := .inl rfl
  kept _ _ := rfl

theorem listened (parted : Parted e e') {j : NodeId} (still : (e'.cell j).listeners ≠ []) :
    (e.cell j).listeners ≠ [] := by
  intro none
  exact still (List.sublist_nil.mp (none ▸ parted.listeners j))

theorem trans (left : Parted e e') (right : Parted e' e'') : Parted e e'' where
  stage := left.stage.trans right.stage
  issued := right.issued.trans left.issued
  listeners j := (right.listeners j).trans (left.listeners j)
  baseline j := (right.baseline j).trans (left.baseline j)
  less j := by
    rcases right.less j with same | none
    · rw [same]
      exact left.less j
    · exact .inr none
  kept j still := (right.kept j still).trans (left.kept j (right.listened still))

theorem unregister (e : Engine) (id : NodeId) (listener : ListenerId) :
    Parted e (e.unregister id listener).2 where
  stage := .unregister e id listener
  issued := rfl
  listeners := listeners_unregister e id listener
  baseline := baseline_unregister e id listener
  less j := .inl (held_unregister e id listener j)
  kept j _ := held_unregister e id listener j

/-- A silent node lets go of its parts. -/
theorem detach {id : NodeId} (silent : (e.cell id).listeners = []) : Parted e (e.detach id) where
  stage := .modifyCell ..
  issued := rfl
  listeners j := by rw [listeners_detach]
  baseline := baseline_detach e id
  less := held_detach e id
  kept j still := by
    rw [listeners_detach] at still
    exact held_detach_of_ne e fun same => still (same ▸ silent)

/-- Nothing more is held than before. -/
theorem holds (parted : Parted e e') {o : Observable} {h : ListenerId} {j : NodeId} (held : e'.Holds made o h j) :
    e.Holds made o h j :=
  holds_of_less parted.less held

theorem bare (parted : Parted e e') {i : NodeId} (none : (e.cell i).held = []) : (e'.cell i).held = [] := by
  rcases parted.less i with same | none'
  · rw [same, none]
  · exact none'

end Parted

/-- Registrations with some nodes, one each, that nobody holds any more, while loose ends are left by
nodes that hold nothing. -/
structure Leaving (made : List Observable) (loose : Observable → ListenerId → NodeId → Prop) (e : Engine)
    (ps : List Observable) (hs : List ListenerId) : Prop where
  linked : e.Linked made (fun _ => False) loose
  bare : ∀ x h j, loose x h j → ∀ i, x.id? = some i → (e.cell i).held = []
  free : ∀ p h, (p, h) ∈ ps.zip hs → ∀ j, p.id? = some j → ∀ x, ¬ e.Holds made x h j

/-- With the registration, a node that nobody listens to any more lets go of its parts. -/
theorem Leaving.last (catalogue : Catalogue made next) {o : Observable} {id : NodeId} {listener : ListenerId}
    (leaving : Leaving made loose e [o] [listener]) (mem : o ∈ made) (named : o.id? = some id)
    (last : ((e.unregister id listener).2.cell id).listeners = []) :
    Leaving made (fun x h j => (loose x h j ∧ ¬ (h = listener ∧ j = id)) ∨ Ties o o.parts (e.cell id).held x h j)
      ((e.unregister id listener).2.detach id) o.parts (e.cell id).held := by
  have linked := leaving.linked
  have free : ∀ x, ¬ e.Holds made x listener id :=
    leaving.free o listener (List.mem_singleton_self _) id named
  have parted := (Parted.unregister e id listener).trans (.detach last)
  have bareAt : (((e.unregister id listener).2.detach id).cell id).held = [] := held_detach_self _ id
  -- Letting go first and leaving afterwards comes to the same, and keeps the links in order in between.
  have released : ((e.detach id).unregister id listener).2.Linked made (fun i => False ∨ i = id)
      fun x h j => (loose x h j ∨ Ties o o.parts (e.cell id).held x h j) ∧ ¬ (h = listener ∧ j = id) := by
    refine (linked.detach catalogue mem named).unregister (fun x holds => ?_) fun _ => held_detach_self e id
    exact free x (holds_of_less (held_detach e id) holds)
  have listeners : ∀ i, (((e.unregister id listener).2.detach id).cell i).listeners =
      (((e.detach id).unregister id listener).2.cell i).listeners := by
    intro i
    simp only [cell_detach, cell_unregister]
    split <;> rfl
  have held : ∀ i, (((e.unregister id listener).2.detach id).cell i).held =
      (((e.detach id).unregister id listener).2.cell i).held := by
    intro i
    simp only [cell_detach, cell_unregister]
    split <;> rfl
  have exchanged : ((e.unregister id listener).2.detach id).Linked made (fun i => False ∨ i = id)
      fun x h j => (loose x h j ∨ Ties o o.parts (e.cell id).held x h j) ∧ ¬ (h = listener ∧ j = id) :=
    released.congr (Nat.le_refl _) listeners held
  refine ⟨?_, ?_, ?_⟩
  · refine (exchanged.relax ?_).loose_congr fun x h j => ?_
    · intro x _ i _ busy _ listened
      obtain rfl : i = id := busy.resolve_left not_false
      rw [listeners_detach] at listened
      exact absurd last listened
    · constructor
      · rintro ⟨old | ties, other⟩
        · exact .inl ⟨old, other⟩
        · exact .inr ties
      · rintro (⟨old, other⟩ | ties)
        · exact ⟨.inl old, other⟩
        · refine ⟨.inr ties, ?_⟩
          rintro ⟨rfl, rfl⟩
          obtain ⟨rfl, p, zipped, pid⟩ := ties
          exact free x ⟨mem, _, named, p, zipped, pid⟩
  · rintro x h j (⟨old, -⟩ | ⟨rfl, -⟩) i xid
    · exact parted.bare (leaving.bare x h j old i xid)
    · obtain rfl : id = i := Option.some.inj (named.symm.trans xid)
      exact bareAt
  · intro p h zipped j pid x holds
    have mine : (h, .relay o) ∈ (e.cell j).listeners :=
      (linked.relays o h j).mpr (.inl ⟨mem, id, named, p, zipped, pid⟩)
    have theirs : (h, .relay x) ∈ (e.cell j).listeners := (linked.relays x h j).mpr (.inl (parted.holds holds))
    have same := linked.eq_of_listener mine theirs rfl
    obtain rfl : o = x := by simpa using same
    obtain ⟨-, i, xid, q, zipped, -⟩ := holds
    obtain rfl : id = i := Option.some.inj (named.symm.trans xid)
    rw [bareAt] at zipped
    simp at zipped

/-- Leaving a node that others still listen to, a plain one, or one that one was not registered with. -/
theorem Leaving.again {o : Observable} {id : NodeId} {listener : ListenerId}
    (leaving : Leaving made loose e [o] [listener]) (named : o.id? = some id)
    (bare : ((e.unregister id listener).2.cell id).listeners = [] → (e.cell id).held = []) :
    Unsubscribed made loose e o listener (e.unregister id listener).2 where
  parted := .unregister e id listener
  linked := by
    have free := leaving.free o listener (List.mem_singleton_self _) id named
    refine (leaving.linked.unregister free bare).loose_congr fun x h j => ?_
    rw [named, Option.some.injEq, eq_comm (a := id)]
  gone j same x mem := by
    obtain rfl : id = j := Option.some.inj (named.symm.trans same)
    exact fun leaver => ((mem_listeners_unregister ..).mp mem).2 ⟨leaver, rfl⟩
  clients j l mem other :=
    (mem_listeners_unregister ..).mpr ⟨mem, fun ⟨leaver, same⟩ => other ⟨leaver, same ▸ named⟩⟩

/-- Leaving a node as the last one, and the node leaving all its parts. -/
theorem Leaving.apart {o : Observable} {id : NodeId} {listener : ListenerId}
    (leaving : Leaving made loose e [o] [listener]) (mem : o ∈ made) (named : o.id? = some id)
    (last : ((e.unregister id listener).2.cell id).listeners = [])
    (parts : UnsubscribedAll made
      (fun x h j => (loose x h j ∧ ¬ (h = listener ∧ j = id)) ∨ Ties o o.parts (e.cell id).held x h j)
      ((e.unregister id listener).2.detach id) o.parts (e.cell id).held e') :
    Unsubscribed made loose e o listener e' := by
  have linked := leaving.linked
  have first : Parted e ((e.unregister id listener).2.detach id) :=
    (Parted.unregister e id listener).trans (.detach last)
  have mine : ∀ p h j, (p, h) ∈ o.parts.zip (e.cell id).held → p.id? = some j →
      (h, .relay o) ∈ (e.cell j).listeners := by
    intro p h j zipped pid
    exact (linked.relays o h j).mpr (.inl ⟨mem, id, named, p, zipped, pid⟩)
  refine ⟨first.trans parts.parted, parts.linked.loose_congr fun x h j => ?_, ?_, ?_⟩
  · rw [named, Option.some.injEq, eq_comm (a := id)]
    constructor
    · rintro ⟨old | ⟨rfl, tied⟩, untied⟩
      · exact old
      · exact absurd tied untied
    · rintro ⟨old, other⟩
      refine ⟨.inl ⟨old, other⟩, ?_⟩
      rintro ⟨p, zipped, pid⟩
      have theirs : (h, .relay x) ∈ (e.cell j).listeners := (linked.relays x h j).mpr (.inr old)
      have same := linked.eq_of_listener (mine p h j zipped pid) theirs rfl
      obtain rfl : o = x := by simpa using same
      simp [leaving.bare o h j old id named] at zipped
  · intro j same x left
    obtain rfl : id = j := Option.some.inj (named.symm.trans same)
    have none : (((e.unregister id listener).2.detach id).cell id).listeners = [] :=
      (listeners_detach ..).trans last
    have left := (parts.parted.listeners id).subset left
    rw [none] at left
    exact absurd left List.not_mem_nil
  · intro j l client other
    refine parts.clients j l ?_ ?_
    · rw [listeners_detach, mem_listeners_unregister]
      exact ⟨client, fun ⟨leaver, same⟩ => other ⟨leaver, same ▸ named⟩⟩
    · rintro ⟨p, zipped, pid⟩
      have same := linked.eq_of_listener (mine p l j zipped pid) client rfl
      simp at same

theorem Leaving.head {p : Observable} {ps : List Observable} {h : ListenerId} {hs : List ListenerId}
    (leaving : Leaving made loose e (p :: ps) (h :: hs)) : Leaving made loose e [p] [h] where
  linked := leaving.linked
  bare := leaving.bare
  free q g zipped := by
    obtain ⟨rfl, rfl⟩ : q = p ∧ g = h := by simpa using zipped
    exact leaving.free q g List.mem_cons_self

theorem Leaving.tail {p : Observable} {ps : List Observable} {h : ListenerId} {hs : List ListenerId}
    (leaving : Leaving made loose e (p :: ps) (h :: hs)) (first : Unsubscribed made loose e p h e') :
    Leaving made (fun x g j => loose x g j ∧ ¬ (g = h ∧ p.id? = some j)) e' ps hs where
  linked := first.linked
  bare x g j old i xid := first.parted.bare (leaving.bare x g j old.1 i xid)
  free q g zipped j qid x holds := leaving.free q g (List.mem_cons_of_mem _ zipped) j qid x (first.parted.holds holds)

theorem UnsubscribedAll.nil {ps : List Observable} {hs : List ListenerId} (leaving : Leaving made loose e ps hs)
    (none : ps.zip hs = []) : UnsubscribedAll made loose e ps hs e where
  parted := .refl e
  linked := leaving.linked.loose_congr fun x h j => by simp [none]
  clients _ _ mem _ := mem

/-- One part more in front. -/
theorem UnsubscribedAll.cons {p : Observable} {ps : List Observable} {h : ListenerId} {hs : List ListenerId}
    (first : Unsubscribed made loose e p h e')
    (rest : UnsubscribedAll made (fun x g j => loose x g j ∧ ¬ (g = h ∧ p.id? = some j)) e' ps hs e'') :
    UnsubscribedAll made loose e (p :: ps) (h :: hs) e'' where
  parted := first.parted.trans rest.parted
  linked := rest.linked.loose_congr fun x g j => by
    simp only [List.zip_cons_cons, List.mem_cons, Prod.mk.injEq]
    constructor
    · rintro ⟨⟨old, other⟩, others⟩
      refine ⟨old, ?_⟩
      rintro ⟨q, ⟨rfl, rfl⟩ | zipped, qid⟩
      · exact other ⟨rfl, qid⟩
      · exact others ⟨q, zipped, qid⟩
    · rintro ⟨old, none⟩
      refine ⟨⟨old, ?_⟩, ?_⟩
      · rintro ⟨rfl, pid⟩
        exact none ⟨p, .inl ⟨rfl, rfl⟩, pid⟩
      · rintro ⟨q, zipped, qid⟩
        exact none ⟨q, .inr zipped, qid⟩
  clients j l mem none := by
    simp only [List.zip_cons_cons, List.mem_cons, Prod.mk.injEq] at none
    refine rest.clients j l (first.clients j l mem ?_) ?_
    · rintro ⟨rfl, pid⟩
      exact none ⟨p, .inl ⟨rfl, rfl⟩, pid⟩
    · rintro ⟨q, zipped, qid⟩
      exact none ⟨q, .inr zipped, qid⟩

/-- Whether a registration was there to be taken off. -/
theorem unregister_found (e : Engine) (id : NodeId) (listener : ListenerId) :
    (e.unregister id listener).1 ↔ ∃ x ∈ (e.cell id).listeners, x.1 = listener := by
  simp only [unregister, bne_iff_ne, ne_eq, List.length_filter_eq_length_iff]
  simp

/-- A node that is not left by its last listener holds nothing unless somebody still listens. -/
theorem Linked.bare_unless_last (linked : e.Linked made (fun _ => False) loose) {id : NodeId} {listener : ListenerId}
    (more : ((e.unregister id listener).1 && (e.unregister id listener).2.isSilent id) = false)
    (none : ((e.unregister id listener).2.cell id).listeners = []) : (e.cell id).held = [] := by
  have missing : ¬ (e.unregister id listener).1 := by
    intro found
    have silent : (e.unregister id listener).2.isSilent id = true := List.isEmpty_iff.mpr none
    rw [found, silent] at more
    contradiction
  rw [unregister_found] at missing
  rw [cell_unregister, if_pos rfl] at none
  refine linked.silent id (List.eq_nil_iff_forall_not_mem.mpr fun x mem => ?_)
  exact absurd (List.filter_eq_nil_iff.mp none x mem) (by simpa using fun same => missing ⟨x, mem, same⟩)

/-- A plain node never holds anything. -/
theorem Linked.bare_of_isPlain (linked : e.Linked made (fun _ => False) loose) {o : Observable} (mem : o ∈ made)
    (plain : o.isPlain) {id : NodeId} (named : o.id? = some id) : (e.cell id).held = [] := by
  by_cases silent : (e.cell id).listeners = []
  · exact linked.silent id silent
  · have full := linked.full o mem id named not_false silent
    rw [Observable.parts_of_isPlain plain] at full
    exact List.length_eq_zero_iff.mp full

/-- A constant has nobody to leave it. -/
theorem Leaving.constant {o : Observable} {listener : ListenerId} (leaving : Leaving made loose e [o] [listener])
    (constant : o.id? = none) : Unsubscribed made loose e o listener e where
  parted := .refl e
  linked := leaving.linked.loose_congr fun x h j => by simp [constant]
  gone j named := by simp [constant] at named
  clients _ _ mem _ := mem

/-- Leaving a node that others are left with, or leaving it as the last one, which takes it off its parts. -/
theorem Leaving.node {o : Observable} {id : NodeId} {listener : ListenerId}
    (leaving : Leaving made loose e [o] [listener]) (mem : o ∈ made) (named : o.id? = some id)
    (parts : (e.unregister id listener).1 → ((e.unregister id listener).2.cell id).listeners = [] →
      UnsubscribedAll made
        (fun x h j => (loose x h j ∧ ¬ (h = listener ∧ j = id)) ∨ Ties o o.parts (e.cell id).held x h j)
        ((e.unregister id listener).2.detach id) o.parts (e.cell id).held e') :
    Unsubscribed made loose e o listener
      (if (e.unregister id listener).1 && (e.unregister id listener).2.isSilent id then e'
        else (e.unregister id listener).2) := by
  cases last : (e.unregister id listener).1 && (e.unregister id listener).2.isSilent id with
  | false => exact leaving.again named (leaving.linked.bare_unless_last last)
  | true =>
    obtain ⟨found, silent⟩ := Bool.and_eq_true_iff.mp last
    have none : ((e.unregister id listener).2.cell id).listeners = [] := List.isEmpty_iff.mp silent
    exact leaving.apart mem named none (parts found none)

mutual

theorem Leaving.unsubscribed_condition (catalogue : Catalogue made next) :
    {loose : Observable → ListenerId → NodeId → Prop} → {e : Engine} → {listener : ListenerId} → (c : Condition) →
    (known : Known made (.condition c)) → (leaving : Leaving made loose e [.condition c] [listener]) →
    Unsubscribed made loose e (.condition c) listener (unsubscribeCondition listener e c).2
  | _, _, _, .always, _, leaving => leaving.constant rfl
  | _, _, _, .never, _, leaving => leaving.constant rfl
  | loose, e, listener, .leaf id l inverted, known, leaving => by
    have mem := known.mem rfl
    simp only [unsubscribeCondition, apply_ite Prod.snd, held_unregister]
    refine leaving.node mem rfl fun found none => ?_
    obtain ⟨x, listed, -⟩ := (unregister_found e id listener).mp found
    have full := leaving.linked.full _ mem id rfl not_false (List.ne_nil_of_mem listed)
    obtain ⟨h, held⟩ := List.length_eq_one_iff.mp full
    have listMem : .list l ∈ made := (catalogue.known_part known (List.mem_singleton_self _)).mem rfl
    have parts := leaving.last catalogue mem rfl none
    rw [held] at parts ⊢
    have native := parts.again rfl fun _ => parts.linked.bare_of_isPlain listMem rfl rfl
    exact .cons native (.nil (parts.tail native) rfl)
  | loose, e, listener, .group id junction cs, known, leaving => by
    have mem := known.mem rfl
    simp only [unsubscribeCondition, apply_ite Prod.snd, held_unregister]
    refine leaving.node mem rfl fun _ none => ?_
    refine Leaving.unsubscribed_all catalogue cs (fun c child => ?_) (leaving.last catalogue mem rfl none)
    exact catalogue.known_part known (List.mem_map_of_mem child)

theorem Leaving.unsubscribed_all (catalogue : Catalogue made next) :
    {loose : Observable → ListenerId → NodeId → Prop} → {e : Engine} → {hs : List ListenerId} → (cs : List Condition) →
    (known : ∀ c ∈ cs, Known made (.condition c)) → (leaving : Leaving made loose e (cs.map .condition) hs) →
    UnsubscribedAll made loose e (cs.map .condition) hs (unsubscribeAll hs e cs)
  | _, _, _, [], _, leaving => .nil leaving rfl
  | _, _, [], c :: cs, _, leaving => .nil leaving rfl
  | _, _, h :: hs, c :: cs, known, leaving => by
    have first := leaving.head.unsubscribed_condition catalogue c (known c List.mem_cons_self)
    have rest := (leaving.tail first).unsubscribed_all catalogue cs fun other mem =>
      known other (List.mem_cons_of_mem _ mem)
    exact .cons first rest

end

/-- Leaving anything known keeps the links in order, if no node holds the registration. -/
theorem InOrder.unsubscribed (links : e.InOrder made) (catalogue : Catalogue made next) {o : Observable}
    (known : Known made o) {listener : ListenerId} (free : ∀ j, o.id? = some j → ∀ x, ¬ e.Holds made x listener j) :
    Unsubscribed made (fun _ _ _ => False) e o listener (e.unsubscribe o listener).2 := by
  have leaving : Leaving made (fun _ _ _ => False) e [o] [listener] := by
    refine ⟨links, fun _ _ _ never => never.elim, ?_⟩
    intro p h zipped
    obtain ⟨rfl, rfl⟩ : p = o ∧ h = listener := by simpa using zipped
    exact free
  cases o with
  | list l => exact leaving.again rfl fun _ => links.bare_of_isPlain (known.mem rfl) rfl rfl
  | channel id => exact leaving.again rfl fun _ => links.bare_of_isPlain (known.mem rfl) rfl rfl
  | condition c => exact leaving.unsubscribed_condition catalogue c known
  | rules id cs =>
    have mem := known.mem rfl
    simp only [unsubscribe, apply_ite Prod.snd, held_unregister]
    refine leaving.node mem rfl fun _ none => ?_
    refine Leaving.unsubscribed_all catalogue cs (fun c rule => ?_) (leaving.last catalogue mem rfl none)
    exact catalogue.known_part known (List.mem_map_of_mem rule)

/-- Leaving works if the registration is one with the observable itself. -/
theorem unsubscribe_found (e : Engine) (o : Observable) (listener : ListenerId) :
    (e.unsubscribe o listener).1 ↔ ∃ j, o.id? = some j ∧ ∃ x ∈ (e.cell j).listeners, x.1 = listener := by
  have node : ∀ id, (e.unregister id listener).1 ↔
      ∃ j, some id = some j ∧ ∃ x ∈ (e.cell j).listeners, x.1 = listener := by
    intro id
    rw [unregister_found]
    simp only [Option.some.injEq, exists_eq_left']
  match o with
  | .list l => exact node l.id
  | .channel id => exact node id
  | .condition .always => simp [unsubscribe, unsubscribeCondition, Observable.id?, Condition.id?]
  | .condition .never => simp [unsubscribe, unsubscribeCondition, Observable.id?, Condition.id?]
  | .condition (.leaf id l inverted) =>
    refine Iff.trans ?_ (node id)
    rw [unsubscribe, unsubscribeCondition]
    dsimp only
    split <;> rfl
  | .condition (.group id junction cs) =>
    refine Iff.trans ?_ (node id)
    rw [unsubscribe, unsubscribeCondition]
    dsimp only
    split <;> rfl
  | .rules id cs =>
    refine Iff.trans ?_ (node id)
    rw [unsubscribe]
    dsimp only
    split <;> rfl

end MediaWatch.Engine
