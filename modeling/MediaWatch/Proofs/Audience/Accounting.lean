import MediaWatch.Proofs.Audience.Outlook
import Mathlib.Data.List.Perm.Basic
import Mathlib.Data.Set.Finite.Lemmas
import Mathlib.Data.Set.Finite.List

/-! # Registrations are accounted for

A node is registered with its parts while it has listeners, once a part, and with nothing otherwise. So
every registration with a list is either one that a client asked for and has not taken off, or the one of a
leaf that has listeners. When clients have taken off whatever they asked for, no registration is left.
-/

namespace MediaWatch

/-- The node that a registration is for, unless it is for a client. -/
def Target.relayed? : Target → Option Observable
  | client => none
  | relay o => some o

namespace Audience

def leafListened (a : Audience) : Observable → Bool
  | .condition (.leaf id _ _) => !a.engine.isSilent id
  | _ => false

/-- Whether a registration that a client asked for is one with a list and was not taken off. -/
def rawInForce (a : Audience) (handle : ListenerId × Observable) : Bool :=
  handle.2.list?.isSome && decide (handle.1 ∉ a.removed)

/-- Whatever has listeners is still there. -/
def Lasting (a : Audience) : Prop :=
  ∀ o ∈ a.made, ∀ i, o.id? = some i → (a.engine.cell i).listeners ≠ [] → a.engine.alive i

def listRegistrations (a : Audience) : List (ListenerId × Target) :=
  a.engine.liveLists.flatMap fun l => (a.engine.cell l.id).listeners

namespace Orderly

variable {a : Audience} {o : Observable} {i : NodeId}

/-- A node holds one registration a part while it has listeners, and none otherwise. -/
theorem held_length (orderly : a.Orderly) (mem : o ∈ a.made) (named : o.id? = some i) :
    (a.engine.cell i).held.length = if a.engine.isSilent i then 0 else o.parts.length := by
  by_cases silent : (a.engine.cell i).listeners = []
  · rw [Engine.isSilent, silent, orderly.links.silent i silent]
    rfl
  · rw [Engine.isSilent, List.isEmpty_eq_false_iff.mpr silent, orderly.links.full o mem i named not_false silent]
    rfl

/-- What a node holds of a part is registered there. -/
theorem held_registered (orderly : a.Orderly) (mem : o ∈ a.made) (named : o.id? = some i) {p : Observable}
    {h : ListenerId} (held : (p, h) ∈ o.parts.zip (a.engine.cell i).held) {j : NodeId} (pid : p.id? = some j) :
    (h, .relay o) ∈ (a.engine.cell j).listeners := by
  apply (orderly.links.relays o h j).mpr
  exact .inl ⟨mem, i, named, p, held, pid⟩

private theorem mem_listRegistrations (orderly : a.Orderly) {x : ListenerId × Target} : x ∈ a.listRegistrations ↔
    ∃ l, .list l ∈ a.made ∧ a.engine.alive l.id ∧ x ∈ (a.engine.cell l.id).listeners := by
  simp only [listRegistrations, Engine.liveLists, List.mem_flatMap, List.mem_filter, orderly.lists, and_assoc]

/-- A registration stands in one place. -/
theorem listRegistrations_once (orderly : a.Orderly) : (a.listRegistrations.map Prod.fst).Nodup := by
  rw [listRegistrations, List.map_flatMap, List.nodup_flatMap]
  constructor
  · intro l _
    exact orderly.links.once l.id
  · apply (orderly.listsOnce.filter _).pairwise_of_forall_ne
    intro l live m live' other h here there
    obtain ⟨x, mem, rfl⟩ := List.mem_map.mp here
    obtain ⟨y, mem', same⟩ := List.mem_map.mp there
    have ids : l.id = m.id := orderly.links.apart l.id m.id x mem y mem' same.symm
    have made := (orderly.lists l).mp (List.mem_filter.mp live).1
    have made' := (orderly.lists m).mp (List.mem_filter.mp live').1
    have eq := orderly.catalogue.eq_of_id made made' (congrArg some ids)
    exact other (Observable.list.inj eq)

/-- A node that is registered with a list is a leaf of it that has listeners. -/
theorem leaf_of_relay (orderly : a.Orderly) {l : MediaList} (mem : .list l ∈ a.made) {h : ListenerId}
    (relay : (h, .relay o) ∈ (a.engine.cell l.id).listeners) :
    o ∈ a.made ∧ ∃ i inverted, o = .condition (.leaf i l inverted) ∧ (a.engine.cell i).held = [h] ∧
      (a.engine.cell i).listeners ≠ [] := by
  obtain ⟨made, i, named, p, held, pid⟩ := ((orderly.links.relays o h l.id).mp relay).resolve_right not_false
  have part := (List.of_mem_zip held).1
  have pmem := (orderly.catalogue.known_part (.inl made) part).mem pid
  obtain rfl : p = .list l := orderly.catalogue.eq_of_id pmem mem pid
  have listened : (a.engine.cell i).listeners ≠ [] := by
    intro silent
    rw [orderly.links.silent i silent, List.zip_nil_right] at held
    exact absurd held List.not_mem_nil
  refine ⟨made, ?_⟩
  match o with
  | .condition (.leaf id m inverted) =>
    obtain rfl : l = m := Observable.list.inj (List.mem_singleton.mp part)
    obtain rfl : id = i := Option.some.inj named
    obtain ⟨k, one⟩ := List.length_eq_one_iff.mp (orderly.links.full _ made id named not_false listened)
    rw [one] at held
    obtain rfl : h = k := by simpa [Observable.parts] using held
    exact ⟨id, inverted, rfl, one, listened⟩
  | .condition (.group id junction cs) =>
    obtain ⟨c, -, absurd⟩ := List.mem_map.mp part
    contradiction
  | .rules id cs =>
    obtain ⟨c, -, absurd⟩ := List.mem_map.mp part
    contradiction

private theorem leafListened_iff : a.leafListened o ↔
    ∃ i l inverted, o = .condition (.leaf i l inverted) ∧ (a.engine.cell i).listeners ≠ [] := by
  match o with
  | .condition (.leaf id l inverted) => simp [leafListened, Engine.isSilent]
  | .condition (.group id junction cs) => simp [leafListened]
  | .condition .always => simp [leafListened]
  | .condition .never => simp [leafListened]
  | .list l => simp [leafListened]
  | .rules id cs => simp [leafListened]
  | .channel id => simp [leafListened]

/-- The leaves that have listeners are those that are registered with live lists, each once. -/
theorem relayed_perm (orderly : a.Orderly) (lasting : a.Lasting) :
    (a.listRegistrations.filterMap fun x => x.2.relayed?).Perm (a.made.filter a.leafListened) := by
  have madeOnce : a.made.Nodup := .of_map _ orderly.catalogue.once
  rw [List.perm_ext_iff_of_nodup ?_ (madeOnce.filter _)]
  · intro o
    rw [List.mem_filterMap, List.mem_filter, leafListened_iff]
    constructor
    · rintro ⟨⟨h, target⟩, mem, relayed⟩
      obtain ⟨l, made, -, registered⟩ := orderly.mem_listRegistrations.mp mem
      cases target with
      | client => contradiction
      | relay x =>
        obtain rfl : x = o := Option.some.inj relayed
        obtain ⟨made, i, inverted, leaf, -, listened⟩ := orderly.leaf_of_relay made registered
        exact ⟨made, i, l, inverted, leaf, listened⟩
    · rintro ⟨made, i, l, inverted, rfl, listened⟩
      obtain ⟨h, relay⟩ := orderly.relay_of_part (p := .list l) made rfl listened (List.mem_singleton_self _) rfl
      have node : .list l ∈ Observable.nodes (.condition (.leaf i l inverted)) :=
        Observable.mem_nodes.mpr (.inl ⟨_, List.mem_singleton_self _, Observable.mem_nodes_self rfl⟩)
      have alive := orderly.alive_node made rfl (lasting _ made i rfl listened) node rfl
      have listMade := orderly.catalogue.mem_of_node (.inl made) node
      exact ⟨(h, .relay _), orderly.mem_listRegistrations.mpr ⟨l, listMade, alive, relay⟩, rfl⟩
  · -- A leaf is registered with one list, and holds one registration there.
    have once : a.listRegistrations.Nodup := .of_map _ orderly.listRegistrations_once
    apply List.pairwise_filterMap.mpr
    apply once.pairwise_of_forall_ne
    rintro ⟨h, target⟩ mem ⟨h', target'⟩ mem' other x relayed y relayed' rfl
    apply other
    obtain ⟨l, made, -, registered⟩ := orderly.mem_listRegistrations.mp mem
    obtain ⟨m, made', -, registered'⟩ := orderly.mem_listRegistrations.mp mem'
    cases target with
    | client => contradiction
    | relay z =>
      cases target' with
      | client => contradiction
      | relay z' =>
        obtain rfl : z = x := Option.some.inj relayed
        obtain rfl : z' = z := Option.some.inj relayed'
        obtain ⟨-, i, inverted, leaf, held, -⟩ := orderly.leaf_of_relay made registered
        obtain ⟨-, j, inverted', leaf', held', -⟩ := orderly.leaf_of_relay made' registered'
        obtain ⟨rfl, -⟩ : i = j ∧ _ := by simpa using leaf.symm.trans leaf'
        obtain rfl : h = h' := by simpa using held.symm.trans held'
        rfl

/-- The clients that are registered with live lists are those that asked for it and did not take it off. -/
theorem clients_perm (orderly : a.Orderly) (lasting : a.Lasting) :
    ((a.listRegistrations.filter fun x => x.2.isClient).map Prod.fst).Perm
      ((a.handles.filter a.rawInForce).map Prod.fst) := by
  rw [List.perm_ext_iff_of_nodup (orderly.listRegistrations_once.sublist (List.filter_sublist.map _))
    (orderly.handlesOnce.sublist (List.filter_sublist.map _))]
  intro h
  rw [List.mem_map, List.mem_map]
  constructor
  · rintro ⟨⟨h, target⟩, mem, rfl⟩
    obtain ⟨mem, client⟩ := List.mem_filter.mp mem
    obtain ⟨l, made, -, registered⟩ := orderly.mem_listRegistrations.mp mem
    cases target with
    | relay x => contradiction
    | client =>
      obtain ⟨stays, -⟩ := orderly.handled l.id h registered
      have handle := orderly.handle_eq registered made rfl
      refine ⟨(h, .list l), List.mem_filter.mpr ⟨handle, ?_⟩, rfl⟩
      simp [rawInForce, Observable.list?, stays]
  · rintro ⟨⟨h, x⟩, mem, rfl⟩
    obtain ⟨handle, force⟩ := List.mem_filter.mp mem
    obtain ⟨raw, stays⟩ := (Bool.and_eq_true ..).to_iff.mp force
    obtain ⟨l, named⟩ := Option.isSome_iff_exists.mp raw
    obtain rfl : x = .list l := Observable.list?_eq_some.mp named
    have made := (orderly.known_handle handle).mem rfl
    have registered := (orderly.inForce h _ handle l.id rfl).resolve_left (of_decide_eq_true stays)
    have alive := lasting _ made l.id rfl (List.ne_nil_of_mem registered)
    exact ⟨(h, .client), List.mem_filter.mpr ⟨orderly.mem_listRegistrations.mpr ⟨l, made, alive, registered⟩, rfl⟩, rfl⟩

/-- Each registration with a list is accounted for. -/
theorem subscriptionCount_eq (orderly : a.Orderly) (lasting : a.Lasting) :
    a.engine.subscriptionCount = a.made.countP a.leafListened + a.handles.countP a.rawInForce := by
  have relayed := (orderly.relayed_perm lasting).length_eq
  have clients := (orderly.clients_perm lasting).length_eq
  rw [List.length_filterMap_eq_countP, ← List.countP_eq_length_filter] at relayed
  rw [List.length_map, List.length_map, ← List.countP_eq_length_filter, ← List.countP_eq_length_filter] at clients
  have split : a.listRegistrations.length = a.listRegistrations.countP (fun x => x.2.isClient) +
      a.listRegistrations.countP (fun x => x.2.relayed?.isSome) := by
    rw [List.length_eq_countP_add_countP fun x => x.2.isClient]
    congr 2
    funext x
    cases x.2 <;> rfl
  rw [← relayed, ← clients, Nat.add_comm]
  exact split

/-- When clients have taken off what they asked for, nobody listens to anything. -/
theorem silent_of_removed (orderly : a.Orderly)
    (removed : ∀ l x, (l, x) ∈ a.handles → x.id?.isSome → l ∈ a.removed) (mem : o ∈ a.made) (named : o.id? = some i) :
    (a.engine.cell i).listeners = [] := by
  by_contra listened
  -- Of all nodes with listeners, take a largest one: whoever listens to it is larger.
  have finite : {x | x ∈ a.made ∧ ∃ i, x.id? = some i ∧ (a.engine.cell i).listeners ≠ []}.Finite :=
    (List.finite_toSet a.made).subset fun x mem => mem.1
  obtain ⟨x, ⟨made, j, xid, heard⟩, largest⟩ := Set.exists_max_image _ (fun x : Observable => sizeOf x) finite
    ⟨o, mem, i, named, listened⟩
  obtain ⟨⟨h, target⟩, registered⟩ := List.exists_mem_of_ne_nil _ heard
  cases target with
  | client =>
    obtain ⟨stays, y, handle, yid⟩ := orderly.handled j h registered
    exact stays (removed h y handle (by rw [yid]; rfl))
  | relay y =>
    obtain ⟨ymem, k, yid, p, held, pid⟩ := ((orderly.links.relays y h j).mp registered).resolve_right not_false
    have part := (List.of_mem_zip held).1
    have pmem := (orderly.catalogue.known_part (.inl ymem) part).mem pid
    obtain rfl : p = x := orderly.catalogue.eq_of_id pmem made (by rw [pid, xid])
    have heard : (a.engine.cell k).listeners ≠ [] := by
      intro silent
      rw [orderly.links.silent k silent, List.zip_nil_right] at held
      exact absurd held List.not_mem_nil
    exact absurd (largest y ⟨ymem, k, yid, heard⟩) (Nat.not_le_of_lt (Observable.sizeOf_part part))

/-- What was taken off cannot be taken off again, from anything. -/
theorem not_found_of_removed (orderly : a.Orderly) {l : ListenerId} (gone : l ∈ a.removed) (x : Observable) :
    (a.engine.unsubscribe x l).1 = false := by
  apply Bool.eq_false_iff.mpr
  intro found
  obtain ⟨z, handle⟩ := orderly.removed l gone
  obtain ⟨j, -, registered⟩ := orderly.client_of_unsubscribed handle found
  exact (orderly.handled j l registered).1 gone

/-- A registration can be taken off what it was asked of until that was done. -/
theorem found_iff (orderly : a.Orderly) {l : ListenerId} (handle : (l, o) ∈ a.handles) (named : o.id? = some i) :
    (a.engine.unsubscribe o l).1 ↔ l ∉ a.removed := by
  constructor
  · intro found gone
    rw [orderly.not_found_of_removed gone o] at found
    contradiction
  · intro stays
    have registered := (orderly.inForce l o handle i named).resolve_left stays
    exact (Engine.unsubscribe_found ..).mpr ⟨i, named, _, registered, rfl⟩

end Orderly

variable {a b : Audience} {ms : List Move}

/-- After any history, each node holds one registration a part while it has listeners and none otherwise, and what it
holds is registered with the part. The registrations with lists are one for each leaf that has listeners and one for
each client that asked for one and did not take it off. What a client asked for of something that can change is taken
off with success exactly if that was not done before, nothing that was taken off with success is ever taken off again,
and no registration with a list is left once clients have taken off all that they asked for of what can change. -/
theorem Run.accounted {features : Media.Features} {registry : Registry}
    (reached : Run Free (start features registry) ms a) :
    (∀ o ∈ a.made, ∀ i, o.id? = some i →
      (a.engine.cell i).held.length = (if a.engine.isSilent i then 0 else o.parts.length) ∧
        ∀ p h, (p, h) ∈ o.parts.zip (a.engine.cell i).held → ∀ j, p.id? = some j →
          (h, .relay o) ∈ (a.engine.cell j).listeners) ∧
      (a.Lasting → a.engine.subscriptionCount = a.made.countP a.leafListened + a.handles.countP a.rawInForce) ∧
      (∀ l o, (l, o) ∈ a.handles → o.id?.isSome → ((a.engine.unsubscribe o l).1 ↔ l ∉ a.removed)) ∧
      (∀ o l, a.Allows (.unlisten o l) → (a.engine.unsubscribe o l).1 → ∀ ns b, Run Free (a.act (.unlisten o l)) ns b →
        ∀ x, (b.engine.unsubscribe x l).1 = false) ∧
      ((∀ l o, (l, o) ∈ a.handles → o.id?.isSome → l ∈ a.removed) → a.engine.subscriptionCount = 0) := by
  have orderly := reached.orderly (orderly_start features registry)
  refine ⟨fun o mem i named => ⟨?_, ?_⟩, orderly.subscriptionCount_eq, ?_, ?_, ?_⟩
  · exact orderly.held_length mem named
  · intro p h held j pid
    exact orderly.held_registered mem named held pid
  · intro l o handle constant
    obtain ⟨i, named⟩ := Option.isSome_iff_exists.mp constant
    exact orderly.found_iff handle named
  · intro o l allowed found ns b later x
    have gone : l ∈ (a.act (.unlisten o l)).removed := mem_removed_unlisten.mpr (.inr ⟨rfl, found⟩)
    have orderly' := orderly.act allowed
    exact (later.orderly orderly').not_found_of_removed (later.removed orderly' gone) x
  · intro removed
    apply List.length_eq_zero_iff.mpr
    apply List.flatMap_eq_nil_iff.mpr
    intro l live
    exact orderly.silent_of_removed removed ((orderly.lists l).mp (List.mem_filter.mp live).1) rfl

def leafletLeft : Audience := leafletHeard.act (.unlisten (.condition leaflet) 0)

/-- The listener is taken off once. Each of the two leaves is registered with its list before and not after. -/
theorem Run.accounted_leaflet :
    leafletHeard.engine.subscriptionCount = 2 ∧ (leafletHeard.engine.unsubscribe (.condition leaflet) 0).1 ∧
      (leafletLeft.engine.unsubscribe (.condition leaflet) 0).1 = false ∧ leafletLeft.engine.subscriptionCount = 0 := by
  have named : Observable.id? (.condition leaflet) = some 0 := by decide +kernel
  have alive : leafletHeard.engine.alive 0 := by decide +kernel
  have asked : leafletHeard.engine.step? = none := Option.isNone_iff_eq_none.mp (by decide +kernel)
  have living : leafletHeard.made.all fun o => o.id?.all leafletHeard.engine.alive := by decide +kernel
  have counted : leafletHeard.made.countP leafletHeard.leafListened +
      leafletHeard.handles.countP leafletHeard.rawInForce = 2 := by decide +kernel
  have alone : leafletHeard.handles.map Prod.fst = [0] ∧ leafletHeard.removed = [] := by decide +kernel
  have reached := leaflet_reached.free
  have handle := leaflet_handle
  rw [leafletLeft]
  -- From here on the state and the condition are known by these facts alone.
  generalize leafletHeard = a at *
  generalize Observable.condition leaflet = o at *
  have lasting : a.Lasting := by
    intro x mem i named _
    have alive := List.all_eq_true.mp living x mem
    rw [named] at alive
    exact alive
  have orderly := reached.orderly (orderly_start _ _)
  have made := (orderly.known_handle handle).mem named
  have leaves : a.Allows (.unlisten o 0) := ⟨asked, .inr ⟨made, 0, named, alive⟩, _, handle⟩
  have left : Run Free a [.unlisten o 0] (a.act (.unlisten o 0)) := .single leaves trivial
  obtain ⟨-, count, found, once, -⟩ := Run.accounted reached
  have stays : 0 ∉ a.removed := by
    rw [alone.2]
    exact List.not_mem_nil
  have success := (found 0 _ handle (by rw [named]; rfl)).mpr stays
  refine ⟨(count lasting).trans counted, success, once _ 0 leaves success [] _ (.nil _) _, ?_⟩
  refine (Run.accounted (reached.append left)).2.2.2.2 fun l x asked _ => ?_
  have first : l ∈ a.handles.map Prod.fst := List.mem_map.mpr ⟨_, asked, rfl⟩
  rw [alone.1, List.mem_singleton] at first
  exact mem_removed_unlisten.mpr (.inr ⟨first, success⟩)

end Audience

end MediaWatch
