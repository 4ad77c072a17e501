import MediaWatch.Proofs.Condition.Meaning
import MediaWatch.Watcher
import Mathlib.Data.List.Flatten

/-! # Simplified conditions are in normal form

Simplifying leaves a constant, or a tree without constants: nothing in it is written like one, and every group
has two children or more. Its leaves are leaves of the original, in order. Such a tree stays what it is when it
is simplified again; only the identities of its groups are new each time.
-/

namespace MediaWatch.Condition

mutual

/-- Every condition that a condition is made of, and the condition itself. -/
def subtrees : Condition → List Condition
  | group id junction cs => subtreesOf cs ++ [group id junction cs]
  | c => [c]

def subtreesOf : List Condition → List Condition
  | [] => []
  | c :: cs => subtrees c ++ subtreesOf cs

end

mutual

/-- The leaves of a condition, in order. -/
def leaves : Condition → List Condition
  | leaf id l inverted => [leaf id l inverted]
  | group _ _ cs => leavesOf cs
  | _ => []

def leavesOf : List Condition → List Condition
  | [] => []
  | c :: cs => leaves c ++ leavesOf cs

end

/-- What is neither written like a constant, in any ASCII case, nor a group of fewer than two children. -/
def IsSettled (c : Condition) : Prop :=
  ¬ Text.sameAsciiLetters c.text allText ∧ ¬ Text.sameAsciiLetters c.text notAllText ∧ c.IsSolid

/-- A tree of which every part is settled. -/
def IsNormal (c : Condition) : Prop := ∀ x ∈ c.subtrees, x.IsSettled

variable {c : Condition} {cs : List Condition} {id : NodeId} {j : Junction}

private theorem subtreesOf_eq (cs : List Condition) : subtreesOf cs = cs.flatMap subtrees := by
  induction cs with
  | nil => rfl
  | cons c cs ih => rw [subtreesOf, List.flatMap_cons, ih]

private theorem leavesOf_eq (cs : List Condition) : leavesOf cs = cs.flatMap leaves := by
  induction cs with
  | nil => rfl
  | cons c cs ih => rw [leavesOf, List.flatMap_cons, ih]

private theorem mem_subtrees_self (c : Condition) : c ∈ c.subtrees := by
  cases c <;> simp [subtrees]

private theorem isNormal_group : (group id j cs).IsNormal ↔ (∀ c ∈ cs, c.IsNormal) ∧ (group id j cs).IsSettled := by
  simp only [IsNormal, subtrees, subtreesOf_eq, List.mem_append, List.mem_flatMap, List.mem_singleton, or_imp,
    forall_and, forall_eq, forall_exists_index, and_imp]
  exact and_congr_left fun _ => ⟨fun parts c mem x part => parts x c mem part,
    fun parts x c mem part => parts c mem x part⟩

theorem isAlways_iff (c : Condition) : c.isAlways ↔ Text.sameAsciiLetters c.text allText := by
  cases c with
  | always => decide
  | never => decide
  | leaf id l inverted => rfl
  | group id j cs => rfl

theorem isNever_iff (c : Condition) : c.isNever ↔ Text.sameAsciiLetters c.text notAllText := by
  cases c with
  | always => decide
  | never => decide
  | leaf id l inverted => rfl
  | group id j cs => rfl

/-! ## Simplifying -/

/-- A constant decides a group or vanishes in it. -/
theorem absorbs_or_vanishes (j : Junction) (b : Bool) : absorbs j (constant b) ∨ vanishes j (constant b) := by
  cases j <;> cases b <;> decide

/-- What is settled neither decides a group nor vanishes in it. -/
theorem IsSettled.stays (settled : c.IsSettled) (j : Junction) : ¬ absorbs j c ∧ ¬ vanishes j c := by
  obtain ⟨notAlways, notNever, -⟩ := settled
  rw [← isAlways_iff] at notAlways
  rw [← isNever_iff] at notNever
  cases j with
  | all => exact ⟨notNever, notAlways⟩
  | any => exact ⟨notAlways, notNever⟩

/-- A group of two or more children is settled. -/
theorem isSettled_group (many : 2 ≤ cs.length) : (group id j cs).IsSettled :=
  ⟨not_sameAsciiLetters_text many (by decide) (by decide), not_sameAsciiLetters_text many (by decide) (by decide), many⟩

/-- Folding children that are constants or normal leaves a constant or a normal tree. -/
theorem isNormal_combine (children : ∀ c ∈ cs, (∃ b, c = constant b) ∨ c.IsNormal) :
    (∃ b, combine id j cs = constant b) ∨ (combine id j cs).IsNormal := by
  rw [combine]
  split
  · exact .inl ⟨_, rfl⟩
  · next none =>
    have normal : ∀ c ∈ cs.filter fun c => !vanishes j c, c.IsNormal := by
      intro c kept
      obtain ⟨mem, stays⟩ := List.mem_filter.mp kept
      refine (children c mem).resolve_left ?_
      rintro ⟨b, rfl⟩
      rcases absorbs_or_vanishes j b with decides | vanishes
      · exact none (List.any_eq_true.mpr ⟨_, mem, decides⟩)
      · rw [vanishes] at stays
        contradiction
    generalize cs.filter (fun c => !vanishes j c) = kept at normal
    rcases kept with _ | ⟨c, _ | ⟨d, rest⟩⟩
    · exact .inl ⟨_, rfl⟩
    · exact .inr (normal c List.mem_cons_self)
    · exact .inr (isNormal_group.mpr ⟨normal, isSettled_group (Nat.le_add_left 2 rest.length)⟩)

mutual

/-- Simplifying leaves a constant or a normal tree. -/
theorem isNormal_simplify : (c : Condition) → (∃ b, c.simplify = constant b) ∨ c.simplify.IsNormal
  | .always => .inl ⟨true, rfl⟩
  | .never => .inl ⟨false, rfl⟩
  | .leaf id l inverted => by
    rw [simplify]
    split
    · exact .inl ⟨true, rfl⟩
    · next notAlways =>
      split
      · exact .inl ⟨false, rfl⟩
      · next notNever =>
        refine .inr fun x part => ?_
        obtain rfl := List.mem_singleton.mp part
        exact ⟨(isAlways_iff _).not.mp notAlways, (isNever_iff _).not.mp notNever, trivial⟩
  | .group id j cs => by
    rw [simplify]
    exact isNormal_combine (isNormal_simplifyAll cs)

theorem isNormal_simplifyAll : (cs : List Condition) →
    ∀ c ∈ simplifyAll cs, (∃ b, c = constant b) ∨ c.IsNormal
  | [] => nofun
  | c :: cs => List.forall_mem_cons.mpr ⟨isNormal_simplify c, isNormal_simplifyAll cs⟩

end

/-- Nothing is folded in a group of settled children if there are at least two of them. -/
theorem combine_of_settled (settled : ∀ c ∈ cs, c.IsSettled) (many : 2 ≤ cs.length) :
    combine id j cs = group id j cs := by
  have decides : cs.any (absorbs j) = false :=
    List.any_eq_false.mpr fun c mem => ((settled c mem).stays j).1
  have kept : cs.filter (fun c => !vanishes j c) = cs := by
    refine List.filter_eq_self.mpr fun c mem => ?_
    rw [Bool.not_eq_true', Bool.eq_false_iff]
    exact ((settled c mem).stays j).2
  rw [combine, decides, kept]
  rcases cs with _ | ⟨c, _ | ⟨d, rest⟩⟩
  · contradiction
  · simp at many
  · rfl

mutual

/-- A normal tree stays what it is. -/
theorem simplify_of_isNormal : (c : Condition) → c.IsNormal → c.simplify = c
  | .always, _ => rfl
  | .never, _ => rfl
  | .leaf id l inverted, normal => by
    obtain ⟨notAlways, notNever, -⟩ := normal _ (mem_subtrees_self _)
    rw [simplify, if_neg ((isAlways_iff _).not.mpr notAlways), if_neg ((isNever_iff _).not.mpr notNever)]
  | .group id j cs, normal => by
    obtain ⟨children, -, -, many⟩ := isNormal_group.mp normal
    rw [simplify, simplifyAll_of_isNormal cs children]
    exact combine_of_settled (fun c mem => children c mem c (mem_subtrees_self c)) many

theorem simplifyAll_of_isNormal : (cs : List Condition) → (∀ c ∈ cs, c.IsNormal) → simplifyAll cs = cs
  | [], _ => rfl
  | c :: cs, normal => by
    obtain ⟨first, others⟩ := List.forall_mem_cons.mp normal
    rw [simplifyAll, simplify_of_isNormal c first, simplifyAll_of_isNormal cs others]

end

private theorem leaves_constant (b : Bool) : (constant b).leaves = [] := by
  cases b <;> rfl

/-- Folding a group keeps leaves, in order, and adds none. -/
theorem leaves_combine (id : NodeId) (j : Junction) (cs : List Condition) :
    (combine id j cs).leaves.Sublist (leavesOf cs) := by
  rw [combine]
  split
  · rw [leaves_constant]
    exact List.nil_sublist _
  · have kept : (leavesOf (cs.filter fun c => !vanishes j c)).Sublist (leavesOf cs) := by
      rw [leavesOf_eq, leavesOf_eq]
      exact List.filter_sublist.flatMap leaves
    generalize cs.filter (fun c => !vanishes j c) = rest at kept
    rcases rest with _ | ⟨c, _ | ⟨d, rest⟩⟩
    · dsimp only
      rw [leaves_constant]
      exact List.nil_sublist _
    · simpa [leavesOf] using kept
    · exact kept

mutual

/-- Simplifying keeps leaves, in order, and adds none. -/
theorem leaves_simplify : (c : Condition) → c.simplify.leaves.Sublist c.leaves
  | .always => .refl _
  | .never => .refl _
  | .leaf id l inverted => by
    rw [simplify]
    split
    · exact List.nil_sublist _
    · split
      · exact List.nil_sublist _
      · exact .refl _
  | .group id j cs => by
    rw [simplify]
    exact (leaves_combine id j _).trans (leaves_simplifyAll cs)

theorem leaves_simplifyAll : (cs : List Condition) → (leavesOf (simplifyAll cs)).Sublist (leavesOf cs)
  | [] => .refl _
  | c :: cs => (leaves_simplify c).append (leaves_simplifyAll cs)

end

/-! ## Relabelling -/

mutual

/-- Identities are given anew, whatever they were. -/
theorem relabel_relabel (n m : NodeId) : (c : Condition) → relabel n (relabel m c).1 = relabel n c
  | .always => rfl
  | .never => rfl
  | .leaf _ _ _ => rfl
  | .group id j cs => by simp only [relabel, relabelAll_relabelAll (n + 1) (m + 1) cs]

theorem relabelAll_relabelAll (n m : NodeId) :
    (cs : List Condition) → relabelAll n (relabelAll m cs).1 = relabelAll n cs
  | [] => rfl
  | c :: cs => by
    simp only [relabelAll, relabel_relabel n m c]
    rw [relabelAll_relabelAll _ _ cs]

end

mutual

theorem leaves_relabel (n : NodeId) : (c : Condition) → (relabel n c).1.leaves = c.leaves
  | .always => rfl
  | .never => rfl
  | .leaf _ _ _ => rfl
  | .group id j cs => by rw [relabel, leaves, leaves, leaves_relabelAll (n + 1) cs]

theorem leaves_relabelAll (n : NodeId) : (cs : List Condition) → leavesOf (relabelAll n cs).1 = leavesOf cs
  | [] => rfl
  | c :: cs => by rw [relabelAll, leavesOf, leavesOf, leaves_relabel n c, leaves_relabelAll _ cs]

end

mutual

theorem holds_relabel (view : View) (n : NodeId) : (c : Condition) → (relabel n c).1.holds view = c.holds view
  | .always => rfl
  | .never => rfl
  | .leaf _ _ _ => rfl
  | .group id j cs => by
    have children := holds_relabelAll view (n + 1) cs
    rw [relabel, holds_group, holds_group]
    cases j with
    | all => simpa only [List.all_map, Function.comp_def] using congrArg (·.all fun b => b) children
    | any => simpa only [List.any_map, Function.comp_def] using congrArg (·.any fun b => b) children

theorem holds_relabelAll (view : View) (n : NodeId) : (cs : List Condition) →
    (relabelAll n cs).1.map (holds view) = cs.map (holds view)
  | [] => rfl
  | c :: cs => congrArg₂ List.cons (holds_relabel view n c) (holds_relabelAll view _ cs)

end

mutual

/-- A normal tree is normal under any identities. -/
theorem isNormal_relabel (n : NodeId) : (c : Condition) → c.IsNormal → (relabel n c).1.IsNormal
  | .always, normal => normal
  | .never, normal => normal
  | .leaf _ _ _, normal => normal
  | .group id j cs, normal => by
    obtain ⟨children, -, -, many⟩ := isNormal_group.mp normal
    obtain ⟨normal, length⟩ := isNormal_relabelAll (n + 1) cs children
    exact isNormal_group.mpr ⟨normal, isSettled_group (le_of_le_of_eq many length.symm)⟩

theorem isNormal_relabelAll (n : NodeId) : (cs : List Condition) → (∀ c ∈ cs, c.IsNormal) →
    (∀ c ∈ (relabelAll n cs).1, c.IsNormal) ∧ (relabelAll n cs).1.length = cs.length
  | [], _ => ⟨nofun, rfl⟩
  | c :: cs, normal => by
    obtain ⟨first, others⟩ := List.forall_mem_cons.mp normal
    obtain ⟨normal, length⟩ := isNormal_relabelAll _ cs others
    exact ⟨List.forall_mem_cons.mpr ⟨isNormal_relabel n c first, normal⟩, congrArg Nat.succ length⟩

end

/-- A simplified condition comes to the same as the original in every snapshot. It is a constant, or nothing in it is
written like one and no group in it has fewer than two children. Its leaves are leaves of the original, in order.
Simplified again, it stays the same but for the identities of its groups. -/
theorem simplified_normal (w : Watcher) (c : Condition) :
    (∀ f : Media.Features, (w.simplified c).1.holds f.view = c.holds f.view) ∧
      ((∃ b, (w.simplified c).1 = constant b) ∨ ∀ x ∈ (w.simplified c).1.subtrees, x.IsSettled) ∧
      (w.simplified c).1.leaves.Sublist c.leaves ∧
      ∀ w' : Watcher, (relabel 0 (w'.simplified (w.simplified c).1).1).1 = (relabel 0 (w.simplified c).1).1 := by
  have computed : ∀ (w : Watcher) (c : Condition), (w.simplified c).1 = (relabel w.engine.nextNode c.simplify).1 :=
    fun _ _ => rfl
  rw [computed]
  simp only [computed]
  refine ⟨fun f => ?_, ?_, ?_, fun w' => ?_⟩
  · rw [holds_relabel, holds_simplify]
  · refine (isNormal_simplify c).imp ?_ (isNormal_relabel _ _)
    rintro ⟨b, folded⟩
    refine ⟨b, ?_⟩
    rw [folded]
    cases b <;> rfl
  · rw [leaves_relabel]
    exact leaves_simplify c
  · rcases isNormal_simplify c with ⟨b, folded⟩ | normal
    · rw [folded]
      cases b <;> rfl
    · rw [simplify_of_isNormal _ (isNormal_relabel _ _ normal), relabel_relabel]

end MediaWatch.Condition
