import MediaWatch.Condition.Simplify
import MediaWatch.Engine.Basic
import MediaWatch.Proofs.Media.Constants

/-! # Simplifying keeps the meaning

What is folded away as a constant is found by its written form. A leaf that is written like a constant is one
in every snapshot, and a group of two or more children is written with a separator that no constant has.
-/

namespace MediaWatch

/-- The lists say what their descriptors come to in a snapshot. -/
def Media.Features.view (f : Media.Features) : View := fun l => f.satisfy l.descriptor

/-- While the environment is there, lists are read off the snapshot. -/
theorem Engine.view_of_connected {e : Engine} (connected : e.connected = true) : e.view = e.features.view := by
  funext l
  rw [Engine.view, if_pos connected]
  rfl

namespace Condition

variable {f : Media.Features} {c : Condition} {cs : List Condition} {id : NodeId} {j : Junction}

theorem holds_group (view : View) (id : NodeId) (j : Junction) (cs : List Condition) : (group id j cs).holds view =
    match j with
    | .all => cs.all (holds view)
    | .any => cs.any (holds view) := by
  cases j with
  | all => exact allHold_eq view cs
  | any => exact anyHolds_eq view cs

theorem holds_constant (view : View) (b : Bool) : (constant b).holds view = b := by
  cases b <;> rfl

/-- What is not a group of fewer than two children. -/
def IsSolid : Condition → Prop
  | group _ _ cs => 2 ≤ cs.length
  | _ => True

/-- The separator between the children stands in the written form of a group. -/
theorem mem_text_group (many : 2 ≤ cs.length) : ',' ∈ (group id j cs).text ∨ 'd' ∈ (group id j cs).text := by
  match cs, many with
  | c :: d :: rest, _ =>
    cases j with
    | all =>
      right
      simp [text, texts, Text.joined, Junction.separator]
    | any =>
      left
      simp [text, texts, Text.joined, Junction.separator]

/-- A group of two or more children is not written like a constant. -/
theorem not_sameAsciiLetters_text (many : 2 ≤ cs.length) {t : Text} (comma : ',' ∉ Text.lowerAscii t)
    (letter : 'd' ∉ Text.lowerAscii t) : ¬ Text.sameAsciiLetters (group id j cs).text t := by
  intro same
  have separated : ',' ∈ (group id j cs).text ∨ 'd' ∈ (group id j cs).text := mem_text_group many
  rcases separated with mem | mem
  · exact comma (Text.toLower_mem_of_sameAsciiLetters same mem)
  · exact letter (Text.toLower_mem_of_sameAsciiLetters same mem)

/-- The text of an inverted leaf is written like a text that starts with `not` if the descriptor is like the rest. -/
theorem sameAsciiLetters_not {d t : Text} (same : Text.sameAsciiLetters ("not ".toList ++ d) ("not ".toList ++ t)) :
    Text.sameAsciiLetters d t := by
  have lowers := beq_iff_eq.mp same
  simp only [Text.lowerAscii, List.map_append, List.append_cancel_left_eq] at lowers
  exact beq_iff_eq.mpr lowers

/-- What is written like the constant that always holds does. -/
theorem holds_of_isAlways (solid : c.IsSolid) (always : c.isAlways) : c.holds f.view = true := by
  match c with
  | .always => rfl
  | .leaf id l false =>
    show (f.satisfy l.descriptor != false) = true
    rw [Media.satisfy_all (d := l.descriptor) f always]
    rfl
  | .leaf id l true =>
    have mem : 'n' ∈ (leaf id l true).text := by simp [text]
    exact absurd (Text.toLower_mem_of_sameAsciiLetters always mem) (by decide)
  | .group id j cs => exact absurd always (not_sameAsciiLetters_text solid (by decide) (by decide))

/-- What is written like the constant that never holds does not. -/
theorem not_holds_of_isNever (solid : c.IsSolid) (never : c.isNever) : c.holds f.view = false := by
  match c with
  | .never => rfl
  | .leaf id l false =>
    show (f.satisfy l.descriptor != false) = false
    rw [Media.satisfy_notAll (d := l.descriptor) f never]
    rfl
  | .leaf id l true =>
    show (f.satisfy l.descriptor != true) = false
    rw [Media.satisfy_all f (sameAsciiLetters_not never)]
    rfl
  | .group id j cs => exact absurd never (not_sameAsciiLetters_text solid (by decide) (by decide))

/-- A group of simplified children is none with fewer than two of them. -/
theorem isSolid_combine (solid : ∀ c ∈ cs, c.IsSolid) : (combine id j cs).IsSolid := by
  rw [combine]
  split
  · cases j <;> trivial
  · split
    · cases j <;> trivial
    · next c left =>
      have mem : c ∈ cs.filter fun c => !vanishes j c := left ▸ List.mem_singleton_self c
      exact solid c (List.mem_filter.mp mem).1
    · next none one =>
      generalize cs.filter (fun c => !vanishes j c) = rest at *
      match rest, none, one with
      | [], none, _ => exact (none rfl).elim
      | [c], _, one => exact (one c rfl).elim
      | c :: d :: rest, _, _ => exact Nat.le_add_left 2 rest.length

mutual

/-- Simplified conditions have no groups of fewer than two children on top. -/
theorem isSolid_simplify : (c : Condition) → c.simplify.IsSolid
  | .always => trivial
  | .never => trivial
  | .leaf id l inverted => by
    rw [simplify]
    split
    · trivial
    · split <;> trivial
  | .group id j cs => by
    rw [simplify]
    exact isSolid_combine (isSolid_simplifyAll cs)

theorem isSolid_simplifyAll : (cs : List Condition) → ∀ c ∈ simplifyAll cs, c.IsSolid
  | [] => nofun
  | c :: cs => List.forall_mem_cons.mpr ⟨isSolid_simplify c, isSolid_simplifyAll cs⟩

end

/-- Children that vanish change nothing in a group. -/
theorem holds_kept (solid : ∀ c ∈ cs, c.IsSolid) :
    (group id j (cs.filter fun c => !vanishes j c)).holds f.view = (group id j cs).holds f.view := by
  rw [holds_group, holds_group]
  cases j with
  | all =>
    rw [Bool.eq_iff_iff, List.all_eq_true, List.all_eq_true]
    constructor
    · intro whole c mem
      cases gone : vanishes .all c with
      | true => exact holds_of_isAlways (solid c mem) gone
      | false => exact whole c (List.mem_filter.mpr ⟨mem, by rw [gone]; rfl⟩)
    · intro whole c mem
      exact whole c (List.mem_filter.mp mem).1
  | any =>
    rw [Bool.eq_iff_iff, List.any_eq_true, List.any_eq_true]
    constructor
    · rintro ⟨c, mem, held⟩
      exact ⟨c, (List.mem_filter.mp mem).1, held⟩
    · rintro ⟨c, mem, held⟩
      cases gone : vanishes .any c with
      | true =>
        rw [not_holds_of_isNever (solid c mem) gone] at held
        contradiction
      | false => exact ⟨c, List.mem_filter.mpr ⟨mem, by rw [gone]; rfl⟩, held⟩

/-- A child that absorbs the others decides a group. -/
theorem holds_absorbed (solid : ∀ c ∈ cs, c.IsSolid) (absorbed : cs.any (absorbs j)) :
    (group id j cs).holds f.view = (j == .any) := by
  obtain ⟨c, mem, decides⟩ := List.any_eq_true.mp absorbed
  rw [holds_group]
  cases j with
  | all =>
    refine List.all_eq_false.mpr ⟨c, mem, ?_⟩
    rw [not_holds_of_isNever (solid c mem) decides]
    exact Bool.false_ne_true
  | any => exact List.any_eq_true.mpr ⟨c, mem, holds_of_isAlways (solid c mem) decides⟩

/-- Folding a group keeps what it comes to. -/
theorem holds_combine (solid : ∀ c ∈ cs, c.IsSolid) :
    (combine id j cs).holds f.view = (group id j cs).holds f.view := by
  rw [combine]
  split
  · next absorbed => rw [holds_constant, holds_absorbed solid absorbed]
  · rw [← holds_kept solid]
    generalize cs.filter (fun c => !vanishes j c) = kept
    match kept with
    | [] => cases j <;> rfl
    | [c] => cases j <;> simp [holds_group]
    | c :: d :: rest => rfl

mutual

/-- Simplifying keeps what a condition comes to, in every snapshot. -/
theorem holds_simplify : (c : Condition) → c.simplify.holds f.view = c.holds f.view
  | .always => rfl
  | .never => rfl
  | .leaf id l inverted => by
    rw [simplify]
    split
    · next always => exact (holds_of_isAlways (c := leaf id l inverted) trivial always).symm
    · split
      · next never => exact (not_holds_of_isNever (c := leaf id l inverted) trivial never).symm
      · rfl
  | .group id j cs => by
    rw [simplify, holds_combine (isSolid_simplifyAll cs), holds_group, holds_group]
    cases j with
    | all => simpa only [List.all_map, Function.comp_def] using congrArg (·.all fun b => b) (holds_simplifyAll cs)
    | any => simpa only [List.any_map, Function.comp_def] using congrArg (·.any fun b => b) (holds_simplifyAll cs)

theorem holds_simplifyAll : (cs : List Condition) →
    (simplifyAll cs).map (holds f.view) = cs.map (holds f.view)
  | [] => rfl
  | c :: cs => congrArg₂ List.cons (holds_simplify c) (holds_simplifyAll cs)

end

end Condition

end MediaWatch
