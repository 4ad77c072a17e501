import MediaWatch.Proofs.Engine.Cells
import MediaWatch.Proofs.Engine.Nodes

/-! # Links between nodes and their parts

A node with listeners is registered with each of its parts once, and keeps the identities of those
registrations; a node without listeners keeps none. `Linked` says that both ends of every such link are
there: what a node holds is registered with the part, and every relay that is registered is held.

Subscribing and leaving walk down a tree and restore the links node by node. In between, nodes that
are being registered with their parts are busy, and registrations without a holder are loose ends.
-/

namespace MediaWatch.Engine

/-- The node `o` holds the registration `h` with its part of identity `j`. -/
def Holds (e : Engine) (made : List Observable) (o : Observable) (h : ListenerId) (j : NodeId) : Prop :=
  o ∈ made ∧ ∃ i, o.id? = some i ∧ ∃ p, (p, h) ∈ o.parts.zip (e.cell i).held ∧ p.id? = some j

/-- Registrations of `o` with some of its parts, one each. -/
def Ties (o : Observable) (ps : List Observable) (hs : List ListenerId) (x : Observable) (h : ListenerId)
    (j : NodeId) : Prop :=
  x = o ∧ ∃ p, (p, h) ∈ ps.zip hs ∧ p.id? = some j

/-- Both ends of every link are there, but for the busy nodes and the loose ends. -/
structure Linked (e : Engine) (made : List Observable) (busy : NodeId → Prop)
    (loose : Observable → ListenerId → NodeId → Prop) : Prop where
  /-- The identity of a registration was given out. -/
  issued : ∀ i, ∀ x ∈ (e.cell i).listeners, x.1 < e.nextListener
  heldIssued : ∀ i, ∀ h ∈ (e.cell i).held, h < e.nextListener
  /-- A registration stands in one place of one cell. -/
  once : ∀ i, ((e.cell i).listeners.map Prod.fst).Nodup
  apart : ∀ i j, ∀ x ∈ (e.cell i).listeners, ∀ y ∈ (e.cell j).listeners, x.1 = y.1 → i = j
  heldOnce : ∀ i, (e.cell i).held.Nodup
  /-- What is held is registered, and what is registered is held. -/
  relays : ∀ o h j, (h, .relay o) ∈ (e.cell j).listeners ↔ e.Holds made o h j ∨ loose o h j
  /-- Without listeners nothing is held; with listeners, one registration a part. -/
  silent : ∀ i, (e.cell i).listeners = [] → (e.cell i).held = []
  full : ∀ o ∈ made, ∀ i, o.id? = some i → ¬ busy i → (e.cell i).listeners ≠ [] →
    (e.cell i).held.length = o.parts.length

/-- The second engine has more registrations than the first: nodes that had listeners keep what they
hold and the reading their listeners know of, and nodes that were silent know of the present one. -/
structure Joined (made : List Observable) (e e' : Engine) : Prop where
  stage : SameStage e e'
  issued : e.nextListener ≤ e'.nextListener
  listeners : ∀ j, ∃ added, (e'.cell j).listeners = (e.cell j).listeners ++ added ∧
    ∀ x ∈ added, e.nextListener ≤ x.1
  kept : ∀ j, (e.cell j).listeners ≠ [] →
    (e'.cell j).held = (e.cell j).held ∧ (e'.cell j).baseline = (e.cell j).baseline
  silent : ∀ j, (e'.cell j).listeners = [] → e'.cell j = e.cell j
  fresh : ∀ o ∈ made, ∀ j, o.id? = some j → (e.cell j).listeners = [] → (e'.cell j).listeners ≠ [] →
    (e'.cell j).baseline = if o.isPlain then (e.cell j).baseline else e.reading o

variable {made : List Observable} {busy busy' : NodeId → Prop} {loose loose' : Observable → ListenerId → NodeId → Prop}
  {e e' e'' : Engine}

private theorem holds_congr (held : ∀ i, (e'.cell i).held = (e.cell i).held) (o : Observable)
    (h : ListenerId) (j : NodeId) : e'.Holds made o h j ↔ e.Holds made o h j := by
  simp only [Holds, held]

namespace Linked

/-- Two registrations of one identity with one node are the same. -/
theorem eq_of_listener (linked : e.Linked made busy loose) {i : NodeId} {x y : ListenerId × Target}
    (hx : x ∈ (e.cell i).listeners) (hy : y ∈ (e.cell i).listeners) (same : x.1 = y.1) : x = y :=
  List.inj_on_of_nodup_map (linked.once i) hx hy same

/-- Bookkeeping looks at registrations only, and identities may be given out freely. -/
theorem congr (linked : e.Linked made busy loose) (issued : e.nextListener ≤ e'.nextListener)
    (listeners : ∀ i, (e'.cell i).listeners = (e.cell i).listeners)
    (held : ∀ i, (e'.cell i).held = (e.cell i).held) : e'.Linked made busy loose where
  issued i x mem := Nat.lt_of_lt_of_le (linked.issued i x (listeners i ▸ mem)) issued
  heldIssued i h mem := Nat.lt_of_lt_of_le (linked.heldIssued i h (held i ▸ mem)) issued
  once i := by rw [listeners]; exact linked.once i
  apart i j := by rw [listeners, listeners]; exact linked.apart i j
  heldOnce i := by rw [held]; exact linked.heldOnce i
  relays o h j := by rw [listeners, holds_congr held]; exact linked.relays o h j
  silent i := by rw [listeners, held]; exact linked.silent i
  full o mem i := by rw [listeners, held]; exact linked.full o mem i

theorem loose_congr (linked : e.Linked made busy loose) (same : ∀ o h j, loose o h j ↔ loose' o h j) :
    e.Linked made busy loose' :=
  { linked with relays := fun o h j => by rw [linked.relays, same] }

/-- A busy node that holds enough, or that nobody listens to, need not count as busy. -/
theorem relax (linked : e.Linked made busy' loose)
    (full : ∀ o ∈ made, ∀ i, o.id? = some i → busy' i → ¬ busy i → (e.cell i).listeners ≠ [] →
      (e.cell i).held.length = o.parts.length) :
    e.Linked made busy loose :=
  { linked with
    full := fun o mem i named idle listened => by
      by_cases occupied : busy' i
      · exact full o mem i named occupied idle listened
      · exact linked.full o mem i named occupied listened }

/-- More nodes can be made, to which nobody listens yet. -/
theorem extend {made' : List Observable} (linked : e.Linked made busy loose) (more : made ⊆ made')
    (new : ∀ o ∈ made', o ∈ made ∨ ∀ i, o.id? = some i → (e.cell i).listeners = []) : e.Linked made' busy loose :=
  { linked with
    relays := fun o h j => by
      have same : e.Holds made' o h j ↔ e.Holds made o h j := by
        constructor
        · rintro ⟨mem, i, named, p, zipped, pid⟩
          rcases new o mem with old | silent
          · exact ⟨old, i, named, p, zipped, pid⟩
          · simp [linked.silent i (silent i named)] at zipped
        · rintro ⟨mem, rest⟩
          exact ⟨more mem, rest⟩
      rw [same]
      exact linked.relays o h j
    full := fun o mem i named idle listened => by
      rcases new o mem with old | silent
      · exact linked.full o old i named idle listened
      · exact absurd (silent i named) listened }

/-- One more registration is a loose end if it is a relay, and makes a node busy that was silent. -/
theorem register (linked : e.Linked made busy loose) (id : NodeId) (target : Target) :
    (e.register id target).2.Linked made (fun i => busy i ∨ (i = id ∧ (e.cell id).listeners = []))
      (fun o h j => loose o h j ∨ (target = .relay o ∧ h = e.nextListener ∧ j = id)) := by
  have listeners := mem_listeners_register e id target
  have next : (e.register id target).2.nextListener = e.nextListener + 1 := rfl
  refine
    { issued := ?issued, heldIssued := ?heldIssued, once := ?once, apart := ?apart, heldOnce := ?heldOnce
      relays := ?relays, silent := ?silent, full := ?full }
  case issued =>
    intro i x mem
    rw [next]
    rcases (listeners i x).mp mem with old | ⟨-, rfl⟩
    · exact Nat.lt_succ_of_lt (linked.issued i x old)
    · exact Nat.lt_succ_self _
  case heldIssued =>
    intro i h mem
    rw [held_register] at mem
    rw [next]
    exact Nat.lt_succ_of_lt (linked.heldIssued i h mem)
  case once =>
    intro i
    rw [cell_register]
    split
    · rw [List.map_append, List.nodup_append]
      refine ⟨linked.once i, List.nodup_singleton _, ?_⟩
      intro a old b new
      obtain ⟨x, mem, rfl⟩ := List.mem_map.mp old
      obtain rfl := List.mem_singleton.mp new
      exact Nat.ne_of_lt (linked.issued i x mem)
    · exact linked.once i
  case apart =>
    intro i j x hx y hy same
    rcases (listeners i x).mp hx with oldx | ⟨rfl, rfl⟩ <;> rcases (listeners j y).mp hy with oldy | ⟨rfl, rfl⟩
    · exact linked.apart i j x oldx y oldy same
    · exact absurd same (Nat.ne_of_lt (linked.issued i x oldx))
    · exact absurd same (Nat.ne_of_gt (linked.issued j y oldy))
    · rfl
  case heldOnce =>
    intro i
    rw [held_register]
    exact linked.heldOnce i
  case relays =>
    intro o h j
    rw [listeners, holds_congr (held_register e id target), linked.relays, Prod.mk.injEq]
    tauto
  case silent =>
    intro i none
    rw [held_register]
    refine linked.silent i (List.eq_nil_iff_forall_not_mem.mpr fun x mem => ?_)
    have : x ∈ ((e.register id target).2.cell i).listeners := (listeners i x).mpr (.inl mem)
    rw [none] at this
    contradiction
  case full =>
    intro o mem i named idle listened
    rw [held_register]
    refine linked.full o mem i named (fun occupied => idle (.inl occupied)) fun none => ?_
    by_cases same : i = id
    · exact idle (.inr ⟨same, same ▸ none⟩)
    · rw [cell_register, if_neg (Ne.symm same)] at listened
      exact listened none

/-- A node that anyone registers with may count as busy. -/
theorem registered_first (linked : e.Linked made busy loose) (id : NodeId) (target : Target) :
    (e.register id target).2.Linked made (fun i => busy i ∨ i = id)
      (fun o h j => loose o h j ∨ (target = .relay o ∧ h = e.nextListener ∧ j = id)) :=
  (linked.register id target).relax fun _ _ _ _ occupied idle _ => absurd (occupied.imp_right And.left) idle

/-- A busy node takes hold of its registrations with its parts. -/
theorem attach {next : NodeId} (catalogue : Catalogue made next) {o : Observable} {id : NodeId} {held : List ListenerId}
    (linked : e.Linked made (fun i => busy i ∨ i = id) (fun x h j => loose x h j ∨ Ties o o.parts held x h j))
    (mem : o ∈ made) (named : o.id? = some id) (bare : (e.cell id).held = [])
    (listened : (e.cell id).listeners ≠ []) (length : held.length = o.parts.length)
    (issued : ∀ h ∈ held, h < e.nextListener) (once : held.Nodup) (reading : Reading) :
    (e.attach id reading held).Linked made busy loose := by
  have listeners := listeners_attach e id reading held
  have heldAt : ((e.attach id reading held).cell id).held = held := by rw [cell_attach, if_pos rfl]
  have heldElse : ∀ i, i ≠ id → ((e.attach id reading held).cell i).held = (e.cell i).held := by
    intro i other
    rw [cell_attach, if_neg (Ne.symm other)]
  refine
    { issued := ?issued, heldIssued := ?heldIssued, once := ?once, apart := ?apart, heldOnce := ?heldOnce
      relays := ?relays, silent := ?silent, full := ?full }
  case issued =>
    intro i x old
    exact linked.issued i x (listeners i ▸ old)
  case heldIssued =>
    intro i h old
    by_cases same : i = id
    · subst same
      exact issued h (heldAt ▸ old)
    · exact linked.heldIssued i h (heldElse i same ▸ old)
  case once =>
    intro i
    rw [listeners]
    exact linked.once i
  case apart =>
    intro i j
    rw [listeners, listeners]
    exact linked.apart i j
  case heldOnce =>
    intro i
    by_cases same : i = id
    · rw [same, heldAt]
      exact once
    · rw [heldElse i same]
      exact linked.heldOnce i
  case relays =>
    intro x h j
    rw [listeners, linked.relays]
    constructor
    · rintro (⟨xmem, i, xid, p, zipped, pid⟩ | loose | ⟨rfl, p, zipped, pid⟩)
      · by_cases same : i = id
        · rw [same, bare] at zipped
          simp at zipped
        · exact .inl ⟨xmem, i, xid, p, by rwa [heldElse i same], pid⟩
      · exact .inr loose
      · exact .inl ⟨mem, id, named, p, by rwa [heldAt], pid⟩
    · rintro (⟨xmem, i, xid, p, zipped, pid⟩ | loose)
      · by_cases same : i = id
        · obtain rfl : x = o := catalogue.eq_of_id xmem mem (by rw [xid, named, same])
          rw [same, heldAt] at zipped
          exact .inr (.inr ⟨rfl, p, zipped, pid⟩)
        · exact .inl ⟨xmem, i, xid, p, by rwa [heldElse i same] at zipped, pid⟩
      · exact .inr (.inl loose)
  case silent =>
    intro i none
    rw [listeners] at none
    by_cases same : i = id
    · exact absurd (same ▸ none) listened
    · rw [heldElse i same]
      exact linked.silent i none
  case full =>
    intro x xmem i xid idle heard
    rw [listeners] at heard
    by_cases same : i = id
    · obtain rfl : x = o := catalogue.eq_of_id xmem mem (by rw [xid, named, same])
      rw [same, heldAt, length]
    · rw [heldElse i same]
      exact linked.full x xmem i xid (fun occupied => occupied.elim idle same) heard

/-- Taking off a registration that nobody holds leaves no link open, if no registration of the node with
its parts is left behind. -/
theorem unregister (linked : e.Linked made busy loose) {id : NodeId} {listener : ListenerId}
    (free : ∀ o, ¬ e.Holds made o listener id)
    (bare : ((e.unregister id listener).2.cell id).listeners = [] → (e.cell id).held = []) :
    (e.unregister id listener).2.Linked made busy (fun o h j => loose o h j ∧ ¬ (h = listener ∧ j = id)) := by
  have sublist := listeners_unregister e id listener
  refine
    { issued := ?issued, heldIssued := ?heldIssued, once := ?once, apart := ?apart, heldOnce := ?heldOnce
      relays := ?relays, silent := ?silent, full := ?full }
  case issued =>
    intro i x mem
    exact linked.issued i x ((sublist i).subset mem)
  case heldIssued =>
    intro i h mem
    exact linked.heldIssued i h (held_unregister e id listener i ▸ mem)
  case once =>
    intro i
    exact (linked.once i).sublist ((sublist i).map Prod.fst)
  case apart =>
    intro i j x hx y hy
    exact linked.apart i j x ((sublist i).subset hx) y ((sublist j).subset hy)
  case heldOnce =>
    intro i
    rw [held_unregister]
    exact linked.heldOnce i
  case relays =>
    intro o h j
    rw [mem_listeners_unregister, holds_congr (held_unregister e id listener), linked.relays]
    constructor
    · rintro ⟨holds | loose, other⟩
      · exact .inl holds
      · exact .inr ⟨loose, other⟩
    · rintro (holds | ⟨loose, other⟩)
      · refine ⟨.inl holds, ?_⟩
        rintro ⟨rfl, rfl⟩
        exact free o holds
      · exact ⟨.inr loose, other⟩
  case silent =>
    intro i none
    rw [held_unregister]
    by_cases same : i = id
    · subst same
      exact bare none
    · rw [cell_unregister, if_neg (Ne.symm same)] at none
      exact linked.silent i none
  case full =>
    intro o mem i named idle listened
    rw [held_unregister]
    exact linked.full o mem i named idle fun none => listened (List.sublist_nil.mp (none ▸ sublist i))

/-- A node that lets go of its registrations with its parts is busy, and they are loose ends. -/
theorem detach {next : NodeId} (catalogue : Catalogue made next) (linked : e.Linked made busy loose) {o : Observable}
    {id : NodeId} (mem : o ∈ made) (named : o.id? = some id) :
    (e.detach id).Linked made (fun i => busy i ∨ i = id)
      (fun x h j => loose x h j ∨ Ties o o.parts (e.cell id).held x h j) := by
  have listeners := listeners_detach e id
  have heldAt := held_detach_self e id
  have heldElse : ∀ i, i ≠ id → ((e.detach id).cell i).held = (e.cell i).held := fun _ => held_detach_of_ne e
  refine
    { issued := ?issued, heldIssued := ?heldIssued, once := ?once, apart := ?apart, heldOnce := ?heldOnce
      relays := ?relays, silent := ?silent, full := ?full }
  case issued =>
    intro i x old
    exact linked.issued i x (listeners i ▸ old)
  case heldIssued =>
    intro i h old
    by_cases same : i = id
    · rw [same, heldAt] at old
      exact absurd old List.not_mem_nil
    · exact linked.heldIssued i h (heldElse i same ▸ old)
  case once =>
    intro i
    rw [listeners]
    exact linked.once i
  case apart =>
    intro i j
    rw [listeners, listeners]
    exact linked.apart i j
  case heldOnce =>
    intro i
    by_cases same : i = id
    · rw [same, heldAt]
      exact List.nodup_nil
    · rw [heldElse i same]
      exact linked.heldOnce i
  case relays =>
    intro x h j
    rw [listeners, linked.relays]
    constructor
    · rintro (⟨xmem, i, xid, p, zipped, pid⟩ | loose)
      · by_cases same : i = id
        · obtain rfl : x = o := catalogue.eq_of_id xmem mem (by rw [xid, named, same])
          exact .inr (.inr ⟨rfl, p, same ▸ zipped, pid⟩)
        · exact .inl ⟨xmem, i, xid, p, by rwa [heldElse i same], pid⟩
      · exact .inr (.inl loose)
    · rintro (⟨xmem, i, xid, p, zipped, pid⟩ | loose | ⟨rfl, p, zipped, pid⟩)
      · by_cases same : i = id
        · rw [same, heldAt] at zipped
          simp at zipped
        · exact .inl ⟨xmem, i, xid, p, by rwa [heldElse i same] at zipped, pid⟩
      · exact .inr loose
      · exact .inl ⟨mem, id, named, p, zipped, pid⟩
  case silent =>
    intro i none
    rw [listeners] at none
    by_cases same : i = id
    · rw [same, heldAt]
    · rw [heldElse i same]
      exact linked.silent i none
  case full =>
    intro x xmem i xid idle heard
    rw [listeners] at heard
    rw [heldElse i fun same => idle (.inr same)]
    exact linked.full x xmem i xid (fun occupied => idle (.inl occupied)) heard

end Linked

end MediaWatch.Engine
