import MediaWatch.Engine.Observable
import Mathlib.Data.List.Nodup

/-! # Nodes

What an observable is made of. Parts are smaller than the whole, so a property passes from the parts
to the whole and holds everywhere. A catalogue lists everything made so far, each identity once, parts
included; two nodes of one identity are then the same node, wherever they are met.
-/

namespace MediaWatch

mutual

/-- Everything with an identity in a condition, parts before the whole. -/
def Condition.nodes : Condition → List Observable
  | .always => []
  | .never => []
  | .leaf id l inverted => [.list l, .condition (.leaf id l inverted)]
  | .group id junction cs => Condition.nodesOf cs ++ [.condition (.group id junction cs)]

def Condition.nodesOf : List Condition → List Observable
  | [] => []
  | c :: cs => c.nodes ++ Condition.nodesOf cs

end

theorem Condition.nodesOf_eq (cs : List Condition) : nodesOf cs = cs.flatMap nodes := by
  induction cs with
  | nil => rfl
  | cons c cs ih => simp [nodesOf, ih]

namespace Observable

/-- Everything with an identity in an observable, parts before the whole. -/
def nodes : Observable → List Observable
  | list l => [list l]
  | condition c => c.nodes
  | rules id cs => Condition.nodesOf cs ++ [rules id cs]
  | channel id => [channel id]

/-- Lists and channels: listeners register with the node itself and nothing else happens. -/
def isPlain : Observable → Bool
  | list _ => true
  | channel _ => true
  | _ => false

theorem parts_of_isPlain {o : Observable} (plain : o.isPlain) : o.parts = [] := by
  cases o with
  | list l => rfl
  | condition c => contradiction
  | rules id cs => contradiction
  | channel id => rfl

theorem not_isPlain_of_part {o p : Observable} (part : p ∈ o.parts) : o.isPlain = false := by
  rw [← Bool.not_eq_true]
  intro plain
  rw [parts_of_isPlain plain] at part
  exact absurd part List.not_mem_nil

theorem parts_of_constant {o : Observable} (constant : o.id? = none) : o.parts = [] := by
  cases o with
  | condition c => cases c <;> first | rfl | contradiction
  | _ => contradiction

/-- The observable itself, if it has an identity. -/
def self (o : Observable) : List Observable := if o.id?.isSome then [o] else []

/-- The nodes of an observable are those of its parts, and the observable itself. -/
theorem nodes_eq (o : Observable) : o.nodes = o.parts.flatMap nodes ++ o.self := by
  have conditions (cs : List Condition) :
      Condition.nodesOf cs = (cs.map condition).flatMap nodes := by
    rw [Condition.nodesOf_eq, List.flatMap_map]
    rfl
  match o with
  | list l => rfl
  | condition .always => rfl
  | condition .never => rfl
  | condition (.leaf id l inverted) => rfl
  | condition (.group id junction cs) => simp [nodes, Condition.nodes, parts, self, id?, Condition.id?, conditions]
  | rules id cs => simp [nodes, parts, self, id?, conditions]
  | channel id => rfl

theorem mem_nodes {y o : Observable} :
    y ∈ o.nodes ↔ (∃ p ∈ o.parts, y ∈ p.nodes) ∨ (y = o ∧ o.id?.isSome) := by
  rw [nodes_eq, List.mem_append, List.mem_flatMap, self]
  split <;> simp_all

theorem sizeOf_part {o p : Observable} (part : p ∈ o.parts) : sizeOf p < sizeOf o := by
  match o, part with
  | condition (.leaf id l inverted), part =>
    obtain rfl := List.mem_singleton.mp part
    simp only [list.sizeOf_spec, condition.sizeOf_spec, Condition.leaf.sizeOf_spec]
    omega
  | condition (.group id junction cs), part =>
    obtain ⟨c, mem, rfl⟩ := List.mem_map.mp part
    have smaller := List.sizeOf_lt_of_mem mem
    simp only [condition.sizeOf_spec, Condition.group.sizeOf_spec]
    omega
  | rules id cs, part =>
    obtain ⟨c, mem, rfl⟩ := List.mem_map.mp part
    have smaller := List.sizeOf_lt_of_mem mem
    simp only [condition.sizeOf_spec, rules.sizeOf_spec]
    omega

/-- What passes from the parts to the whole holds of every observable. -/
theorem part_induction {motive : Observable → Prop}
    (step : ∀ o, (∀ p ∈ o.parts, motive p) → motive o) (o : Observable) : motive o := by
  induction size : sizeOf o using Nat.strongRecOn generalizing o with
  | ind n ih =>
    subst size
    exact step o fun p part => ih (sizeOf p) (sizeOf_part part) p rfl

/-- Plain observables have no parts; what passes from the parts to the whole holds of all others. -/
theorem whole_induction {motive : Observable → Prop} (list : ∀ l, motive (.list l))
    (channel : ∀ id, motive (.channel id))
    (whole : ∀ o, o.isPlain = false → (∀ p ∈ o.parts, motive p) → motive o) (o : Observable) : motive o := by
  induction o using part_induction with
  | step o ih =>
    cases o with
    | list l => exact list l
    | condition c => exact whole _ rfl ih
    | rules id cs => exact whole _ rfl ih
    | channel id => exact channel id

theorem id?_of_mem_nodes {y o : Observable} (mem : y ∈ o.nodes) : y.id?.isSome := by
  induction o using part_induction with
  | step o ih =>
    rcases mem_nodes.mp mem with ⟨p, part, mem⟩ | ⟨rfl, named⟩
    · exact ih p part mem
    · exact named

/-- Nodes of nodes are nodes. -/
theorem nodes_trans {z y o : Observable} (inner : z ∈ y.nodes) (outer : y ∈ o.nodes) : z ∈ o.nodes := by
  induction o using part_induction with
  | step o ih =>
    rcases mem_nodes.mp outer with ⟨p, part, outer⟩ | ⟨rfl, -⟩
    · exact mem_nodes.mpr (.inl ⟨p, part, ih p part outer⟩)
    · exact inner

theorem mem_nodes_self {o : Observable} {i : NodeId} (named : o.id? = some i) : o ∈ o.nodes :=
  mem_nodes.mpr (.inr ⟨rfl, Option.isSome_iff_exists.mpr ⟨i, named⟩⟩)

mutual

private theorem mentions_condition (id : NodeId) :
    (c : Condition) → (c.mentions id ↔ ∃ y ∈ c.nodes, y.id? = some id)
  | .always => by simp [Condition.mentions, Condition.nodes]
  | .never => by simp [Condition.mentions, Condition.nodes]
  | .leaf own l inverted => by
    simp [Condition.mentions, Condition.nodes, id?, Condition.id?, or_comm]
  | .group own junction cs => by
    simp [Condition.mentions, Condition.nodes, mentions_conditions id cs, id?, Condition.id?, or_and_right,
      exists_or, or_comm]

private theorem mentions_conditions (id : NodeId) :
    (cs : List Condition) → (Condition.anyMentions id cs ↔ ∃ y ∈ Condition.nodesOf cs, y.id? = some id)
  | [] => by simp [Condition.anyMentions, Condition.nodesOf]
  | c :: cs => by
    simp [Condition.anyMentions, Condition.nodesOf, mentions_condition id c, mentions_conditions id cs,
      or_and_right, exists_or]

end

/-- An observable mentions the identities of its nodes and no others. -/
theorem mentions_iff {id : NodeId} {o : Observable} : o.mentions id ↔ ∃ y ∈ o.nodes, y.id? = some id := by
  cases o with
  | list l => simp [mentions, nodes, id?]
  | condition c => exact mentions_condition id c
  | rules own cs =>
    simp [mentions, nodes, mentions_conditions id cs, id?, or_and_right, exists_or, or_comm]
  | channel own => simp [mentions, nodes, id?]

private theorem activeIndex_congr {view view' : View} {cs : List Condition}
    (same : ∀ c ∈ cs, c.holds view = c.holds view') : activeIndex view cs = activeIndex view' cs := by
  induction cs with
  | nil => rfl
  | cons c cs ih =>
    have rest := ih fun other mem => same other (List.mem_cons_of_mem _ mem)
    simp only [activeIndex, rest, same c List.mem_cons_self]

/-- An observable that is not plain reads the same while its parts do. -/
theorem reading_of_parts {view view' : View} {o : Observable} (whole : o.isPlain = false)
    (same : ∀ p ∈ o.parts, p.reading view = p.reading view') : o.reading view = o.reading view' := by
  match o with
  | condition .always => rfl
  | condition .never => rfl
  | condition (.leaf id l inverted) =>
    have listed := same (list l) List.mem_cons_self
    simp only [reading, Reading.truth.injEq] at listed
    simp only [reading, Condition.holds, listed]
  | condition (.group id junction cs) =>
    have children : ∀ c ∈ cs, c.holds view = c.holds view' := fun c mem => by
      simpa only [reading, Reading.truth.injEq] using same (condition c) (List.mem_map_of_mem mem)
    cases junction with
    | all =>
      simp only [reading, Condition.holds, Condition.allHold_eq, Reading.truth.injEq]
      rw [Bool.eq_iff_iff, List.all_eq_true, List.all_eq_true]
      exact forall₂_congr fun c mem => by rw [children c mem]
    | any =>
      simp only [reading, Condition.holds, Condition.anyHolds_eq, Reading.truth.injEq]
      rw [Bool.eq_iff_iff, List.any_eq_true, List.any_eq_true]
      exact exists_congr fun c => and_congr_right fun mem => by rw [children c mem]
  | rules id cs =>
    have children : ∀ c ∈ cs, c.holds view = c.holds view' := fun c mem => by
      simpa only [reading, Reading.truth.injEq] using same (condition c) (List.mem_map_of_mem mem)
    simp only [reading, activeIndex_congr children]

end Observable

/-- Everything made so far: each identity once, below the next one to be taken, with all parts. -/
structure Catalogue (made : List Observable) (next : NodeId) : Prop where
  named : ∀ o ∈ made, ∃ id < next, o.id? = some id
  once : (made.map Observable.id?).Nodup
  parts : ∀ o ∈ made, ∀ p ∈ o.parts, p ∈ made ∨ p.id? = none

/-- Something made so far, or a constant. -/
def Known (made : List Observable) (o : Observable) : Prop := o ∈ made ∨ o.id? = none

theorem Known.mem_of_isSome {made : List Observable} {o : Observable} (known : Known made o) (named : o.id?.isSome) :
    o ∈ made := by
  rcases known with mem | constant
  · exact mem
  · simp [constant] at named

theorem Known.mem {made : List Observable} {o : Observable} {i : NodeId} (known : Known made o)
    (named : o.id? = some i) : o ∈ made :=
  known.mem_of_isSome (Option.isSome_iff_exists.mpr ⟨i, named⟩)

namespace Catalogue

variable {made : List Observable} {next : NodeId}

/-- An identity names one node. -/
theorem eq_of_id (catalogue : Catalogue made next) {x y : Observable} (hx : x ∈ made) (hy : y ∈ made)
    (same : x.id? = y.id?) : x = y :=
  List.inj_on_of_nodup_map catalogue.once hx hy same

theorem known_part (catalogue : Catalogue made next) {o p : Observable} (known : Known made o)
    (part : p ∈ o.parts) : Known made p := by
  rcases known with mem | constant
  · exact catalogue.parts o mem p part
  · rw [Observable.parts_of_constant constant] at part
    exact absurd part List.not_mem_nil

/-- All nodes of what is known are in the catalogue. -/
theorem mem_of_node (catalogue : Catalogue made next) {y o : Observable} (known : Known made o)
    (node : y ∈ o.nodes) : y ∈ made := by
  induction o using Observable.part_induction with
  | step o ih =>
    rcases Observable.mem_nodes.mp node with ⟨p, part, node⟩ | ⟨rfl, named⟩
    · exact ih p part (catalogue.known_part known part) node
    · exact known.mem_of_isSome named

end Catalogue

end MediaWatch
