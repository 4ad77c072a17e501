import MediaWatch.Proofs.Media.Items

/-! # Malformed items

A part that is neither a media type nor a feature is read as one that never holds. An item with such a part still has a
value: the parts do not hold together, and a `not` in front makes that true.
-/

namespace MediaWatch.Media

/-- An item with a part that is neither a media type nor a feature with a name. -/
def IsMalformed (item : Text) : Prop :=
  ∃ lead body, HasBody item lead body ∧ ∃ part ∈ Text.cut Text.andWord body, ¬ IsPartText part

/-- An item with `not` and a space in front. -/
def IsNegated (item : Text) : Prop := ∃ l : Lead, l.negates ∧ l.text <+: item.trim

variable {item : Text}

private theorem isMalformed_iff : IsMalformed item ↔ .invalid ∈ (Query.ofText item).parts := by
  constructor
  · rintro ⟨lead, body, has, part, mem, bad⟩
    rw [has.ofText]
    refine List.mem_map.mpr ⟨part, mem, ?_⟩
    rwa [ofText_eq_invalid, isPartText_lowerAscii]
  · intro mem
    obtain ⟨lead, body, has⟩ := exists_hasBody item
    rw [has.ofText] at mem
    obtain ⟨part, piece, invalid⟩ := List.mem_map.mp mem
    refine ⟨lead, body, has, part, piece, ?_⟩
    rwa [ofText_eq_invalid, isPartText_lowerAscii] at invalid

private theorem isNegated_iff : IsNegated item ↔ (Query.ofText item).negated := by
  constructor
  · rintro ⟨l, negates, front⟩
    obtain ⟨l', body, same, has⟩ := exists_of_front l front
    rw [has.ofText]
    exact same.trans negates
  · intro negated
    obtain ⟨lead, body, has⟩ := exists_hasBody item
    rw [has.ofText] at negated
    cases has with
    | bare => contradiction
    | led l _ split _ => exact ⟨l, negated, body, split.symm⟩

instance (item : Text) : Decidable (IsMalformed item) := decidable_of_iff _ isMalformed_iff.symm

instance (item : Text) : Decidable (IsNegated item) := decidable_of_iff _ isNegated_iff.symm

/-- A malformed item holds in every snapshot or in none. -/
theorem holds_of_isMalformed (f : Features) (malformed : IsMalformed item) :
    (Query.ofText item).holds f ↔ IsNegated item := by
  have unmet : (Query.ofText item).parts.all (Part.holds f) = false := by
    apply List.all_eq_false.mpr
    exact ⟨.invalid, isMalformed_iff.mp malformed, Bool.false_ne_true⟩
  rw [isNegated_iff, Query.holds, unmet, Bool.false_bne]

/-- A descriptor of malformed items does not hold exactly if none of them has a `not` in front. -/
theorem satisfy_malformed (f : Features) {d : Text} (some : d.trim ≠ [])
    (malformed : ∀ item ∈ Text.pieces ',' d, IsMalformed item) :
    f.satisfy d = false ↔ ∀ item ∈ Text.pieces ',' d, ¬ IsNegated item := by
  rw [satisfy_items f some, List.any_eq_false]
  refine forall₂_congr fun item mem => ?_
  exact not_congr (holds_of_isMalformed f (malformed item mem))

/-- Four items, each with a part that is none: a word with a sign, a feature without a name, nothing at all, and
parentheses that are not closed. -/
def scrawl : Text := "print and @x,\tONLY  (: 3px) AND screen,, (min-width: 3px".toList

theorem satisfy_malformed_scrawl :
    scrawl.trim ≠ [] ∧ (∀ item ∈ Text.pieces ',' scrawl, IsMalformed item) ∧
      ({} : Features).satisfy scrawl = false := by
  have some : scrawl.trim ≠ [] := by decide +kernel
  have malformed : ∀ item ∈ Text.pieces ',' scrawl, IsMalformed item := by decide +kernel
  refine ⟨some, malformed, (satisfy_malformed {} some malformed).mpr ?_⟩
  decide +kernel

/-- A malformed item holds if it is negated. -/
theorem malformed_satisfied :
    let d : Text := "not @unknown".toList
    d.trim ≠ [] ∧ (∀ item ∈ Text.pieces ',' d, IsMalformed item) ∧ ({} : Features).satisfy d = true := by
  decide +kernel

end MediaWatch.Media
