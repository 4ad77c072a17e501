import MediaWatch.Condition.Compile
import MediaWatch.Proofs.Engine.Nodes
import Mathlib.Data.List.Flatten

/-! # Identities of new conditions

Compiling numbers everything it makes from the next free identity on, and numbers nothing twice.
Simplifying drops nodes and keeps the leaves that remain, and relabelling numbers the groups anew.
-/

namespace MediaWatch

namespace Observable

def isGroup : Observable → Bool
  | condition (.group _ _ _) => true
  | _ => false

def list? : Observable → Option MediaList
  | list l => some l
  | _ => none

theorem list?_eq_some {o : Observable} {l : MediaList} : o.list? = some l ↔ o = list l := by
  cases o <;> simp [list?]

end Observable

/-- Nodes with identities of their own, from one bound up to another. -/
structure Numbered (next after : NodeId) (ys : List Observable) : Prop where
  le : next ≤ after
  once : (ys.map Observable.id?).Nodup
  range : ∀ y ∈ ys, ∃ id, y.id? = some id ∧ next ≤ id ∧ id < after

namespace Numbered

variable {next middle after : NodeId} {xs ys : List Observable} {y : Observable}

theorem nil (next : NodeId) : Numbered next next [] where
  le := Nat.le_refl _
  once := List.nodup_nil
  range _ mem := absurd mem List.not_mem_nil

theorem single (named : y.id? = some next) : Numbered next (next + 1) [y] where
  le := Nat.le_succ _
  once := List.nodup_singleton _
  range x mem := by
    obtain rfl := List.mem_singleton.mp mem
    exact ⟨next, named, Nat.le_refl _, Nat.lt_succ_self _⟩

theorem append (first : Numbered next middle xs) (second : Numbered middle after ys) :
    Numbered next after (xs ++ ys) where
  le := Nat.le_trans first.le second.le
  once := by
    rw [List.map_append, List.nodup_append]
    refine ⟨first.once, second.once, ?_⟩
    intro a left b right same
    obtain ⟨x, hx, rfl⟩ := List.mem_map.mp left
    obtain ⟨y, hy, rfl⟩ := List.mem_map.mp right
    obtain ⟨i, xid, -, below⟩ := first.range x hx
    obtain ⟨j, yid, above, -⟩ := second.range y hy
    rw [xid, yid, Option.some.injEq] at same
    exact absurd (Nat.lt_of_lt_of_le below above) (same ▸ Nat.lt_irrefl i)
  range y mem := by
    rcases List.mem_append.mp mem with mem | mem
    · obtain ⟨id, named, above, below⟩ := first.range y mem
      exact ⟨id, named, above, Nat.lt_of_lt_of_le below second.le⟩
    · obtain ⟨id, named, above, below⟩ := second.range y mem
      exact ⟨id, named, Nat.le_trans first.le above, below⟩

theorem perm (numbered : Numbered next after xs) (same : xs.Perm ys) : Numbered next after ys where
  le := numbered.le
  once := (same.map _).nodup_iff.mp numbered.once
  range y mem := numbered.range y (same.mem_iff.mpr mem)

/-- The number of a whole may be taken before those of its parts. -/
theorem around (named : y.id? = some next) (inner : Numbered (next + 1) after ys) : Numbered next after (ys ++ [y]) :=
  ((single named).append inner).perm List.perm_append_comm

theorem of_ids (numbered : Numbered next after xs) (ids : (ys.map Observable.id?).Sublist (xs.map Observable.id?)) :
    Numbered next after ys where
  le := numbered.le
  once := numbered.once.sublist ids
  range y mem := by
    obtain ⟨x, hx, same⟩ := List.mem_map.mp (ids.subset (List.mem_map_of_mem mem))
    rw [← same]
    exact numbered.range x hx

end Numbered

namespace Condition

private theorem numbered_ofTerm (next : NodeId) (t : Term) :
    Numbered next (ofTerm next t).2 (ofTerm next t).1.nodes := by
  cases t with
  | constant holds => cases holds <;> exact .nil next
  | watch descriptor inverted =>
    exact (Numbered.single rfl).append (.single rfl)

private theorem numbered_ofTerms (next : NodeId) (ts : List Term) :
    Numbered next (ofTerms next ts).2 (nodesOf (ofTerms next ts).1) := by
  induction ts generalizing next with
  | nil => exact .nil next
  | cons t ts ih => exact (numbered_ofTerm next t).append (ih _)

private theorem numbered_ofGroups (next : NodeId) (groups : List (List Term)) :
    Numbered next (ofGroups next groups).2 (nodesOf (ofGroups next groups).1) := by
  induction groups generalizing next with
  | nil => exact .nil next
  | cons ts rest ih => exact (Numbered.around rfl (numbered_ofTerms (next + 1) ts)).append (ih _)

private theorem nodesOf_mem_sublist {c : Condition} {cs : List Condition} (mem : c ∈ cs) :
    c.nodes.Sublist (nodesOf cs) := by
  obtain ⟨before, behind, rfl⟩ := List.append_of_mem mem
  rw [nodesOf_eq, List.flatMap_append, List.flatMap_cons]
  exact (List.sublist_append_left _ _).trans (List.sublist_append_right _ _)

/-- What is left of a group's children are some of them. -/
private theorem combine_cases (id : NodeId) (junction : Junction) (cs : List Condition) :
    (∃ holds, combine id junction cs = constant holds) ∨ combine id junction cs ∈ cs ∨
      ∃ rest, rest.Sublist cs ∧ combine id junction cs = group id junction rest := by
  rw [combine]
  split
  · exact .inl ⟨_, rfl⟩
  · split
    · exact .inl ⟨_, rfl⟩
    · next c left =>
      exact .inr (.inl ((left ▸ List.filter_sublist).subset List.mem_cons_self))
    · exact .inr (.inr ⟨_, List.filter_sublist, rfl⟩)

private theorem nodes_constant (holds : Bool) : (constant holds).nodes = [] := by
  cases holds <;> rfl

private theorem ids_combine (id : NodeId) (junction : Junction) (cs : List Condition) :
    ((combine id junction cs).nodes.map Observable.id?).Sublist ((nodesOf cs).map Observable.id? ++ [some id]) := by
  rcases combine_cases id junction cs with ⟨holds, folded⟩ | child | ⟨rest, fewer, folded⟩
  · rw [folded, nodes_constant]
    exact List.nil_sublist _
  · exact ((nodesOf_mem_sublist child).map _).trans (List.sublist_append_left _ _)
  · rw [folded, nodes, List.map_append, nodesOf_eq, nodesOf_eq]
    exact ((fewer.flatMap nodes).map _).append (.refl _)

mutual

/-- Simplifying takes identities away and adds none. -/
theorem ids_simplify : (c : Condition) → (c.simplify.nodes.map Observable.id?).Sublist (c.nodes.map Observable.id?)
  | always => .refl _
  | never => .refl _
  | leaf id l inverted => by
    rw [simplify]
    split
    · exact List.nil_sublist _
    · split
      · exact List.nil_sublist _
      · exact .refl _
  | group id junction cs => by
    rw [simplify, nodes, List.map_append]
    exact (ids_combine id junction (simplifyAll cs)).trans ((ids_simplifyAll cs).append (.refl _))

theorem ids_simplifyAll : (cs : List Condition) →
    ((nodesOf (simplifyAll cs)).map Observable.id?).Sublist ((nodesOf cs).map Observable.id?)
  | [] => .refl _
  | c :: cs => by
    rw [simplifyAll, nodesOf, nodesOf, List.map_append, List.map_append]
    exact (ids_simplify c).append (ids_simplifyAll cs)

end

/-- Everything that a query is compiled to is numbered from the next identity on. -/
theorem numbered_compile (r : Registry) (next : NodeId) (query : Text) :
    Numbered next (compile r next query).2 (compile r next query).1.nodes := by
  rw [compile]
  dsimp only
  split
  · exact .nil next
  · have groups := numbered_ofGroups (next + 1) (r.groups query.trim)
    have whole :
        Numbered next _ (group next .any (ofGroups (next + 1) (r.groups query.trim)).1).nodes := .around rfl groups
    exact whole.of_ids (ids_simplify _)

mutual

/-- Apart from groups, simplifying makes no nodes. -/
theorem mem_nodes_of_simplify {y : Observable} (single : y.isGroup = false) :
    (c : Condition) → y ∈ c.simplify.nodes → y ∈ c.nodes
  | always, mem => mem
  | never, mem => mem
  | leaf id l inverted, mem => by
    rw [simplify] at mem
    split at mem
    · exact absurd mem List.not_mem_nil
    · split at mem
      · exact absurd mem List.not_mem_nil
      · exact mem
  | group id junction cs, mem => by
    rw [simplify] at mem
    refine List.mem_append_left _ (mem_nodes_of_simplifyAll single cs ?_)
    rcases combine_cases id junction (simplifyAll cs) with ⟨holds, folded⟩ | child | ⟨rest, fewer, folded⟩
    · rw [folded, nodes_constant] at mem
      exact absurd mem List.not_mem_nil
    · exact (nodesOf_mem_sublist child).subset mem
    · rw [folded, nodes] at mem
      rcases List.mem_append.mp mem with mem | mem
      · rw [nodesOf_eq] at mem ⊢
        exact (fewer.flatMap nodes).subset mem
      · obtain rfl := List.mem_singleton.mp mem
        contradiction

theorem mem_nodes_of_simplifyAll {y : Observable} (single : y.isGroup = false) :
    (cs : List Condition) → y ∈ nodesOf (simplifyAll cs) → y ∈ nodesOf cs
  | [], mem => mem
  | c :: cs, mem => by
    rcases List.mem_append.mp mem with mem | mem
    · exact List.mem_append_left _ (mem_nodes_of_simplify single c mem)
    · exact List.mem_append_right _ (mem_nodes_of_simplifyAll single cs mem)

end

mutual

/-- Apart from groups, relabelling makes no nodes. -/
theorem mem_nodes_of_relabel {y : Observable} (single : y.isGroup = false) :
    (next : NodeId) → (c : Condition) → y ∈ (relabel next c).1.nodes → y ∈ c.nodes
  | _, always, mem => mem
  | _, never, mem => mem
  | _, leaf _ _ _, mem => mem
  | next, group id junction cs, mem => by
    rcases List.mem_append.mp mem with mem | mem
    · exact List.mem_append_left _ (mem_nodes_of_relabelAll single (next + 1) cs mem)
    · obtain rfl := List.mem_singleton.mp mem
      contradiction

theorem mem_nodes_of_relabelAll {y : Observable} (single : y.isGroup = false) :
    (next : NodeId) → (cs : List Condition) → y ∈ nodesOf (relabelAll next cs).1 → y ∈ nodesOf cs
  | _, [], mem => mem
  | next, c :: cs, mem => by
    rcases List.mem_append.mp mem with mem | mem
    · exact List.mem_append_left _ (mem_nodes_of_relabel single next c mem)
    · exact List.mem_append_right _ (mem_nodes_of_relabelAll single _ cs mem)

end

mutual

/-- Relabelling numbers every group of the new tree. -/
theorem numbered_relabel (next : NodeId) : (c : Condition) →
    Numbered next (relabel next c).2 ((relabel next c).1.nodes.filter Observable.isGroup)
  | always => .nil next
  | never => .nil next
  | leaf _ _ _ => .nil next
  | group id junction cs => by
    rw [relabel, nodes, List.filter_append]
    exact .around rfl (numbered_relabelAll (next + 1) cs)

theorem numbered_relabelAll (next : NodeId) : (cs : List Condition) →
    Numbered next (relabelAll next cs).2 ((nodesOf (relabelAll next cs).1).filter Observable.isGroup)
  | [] => .nil next
  | c :: cs => by
    rw [relabelAll, nodesOf, List.filter_append]
    exact (numbered_relabel next c).append (numbered_relabelAll _ cs)

end

mutual

theorem lists_eq : (c : Condition) → c.lists = c.nodes.filterMap Observable.list?
  | always => rfl
  | never => rfl
  | leaf _ _ _ => rfl
  | group id junction cs => by
    rw [lists, nodes, List.filterMap_append, listsOf_eq cs]
    exact (List.append_nil _).symm

theorem listsOf_eq : (cs : List Condition) → listsOf cs = (nodesOf cs).filterMap Observable.list?
  | [] => rfl
  | c :: cs => by rw [listsOf, nodesOf, List.filterMap_append, lists_eq c, listsOf_eq cs]

end

end Condition

end MediaWatch
