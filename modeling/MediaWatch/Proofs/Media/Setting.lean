import MediaWatch.Proofs.Media.Feature

/-! # Features that are set are read

A feature with no field of its own is kept under its name, and a descriptor with the same name and value holds
afterwards. Two kinds of names are kept but never read: the orientation follows from the size, and a bound in front of a
name is for the sizes and the resolution alone.
-/

namespace MediaWatch.Media

variable {f g : Features} {name value key : Text}

/-! ## What is read of the other features -/

/-- Whether a name starts with a bound that is for the sizes and the resolution alone. -/
def IsBounded (name : Text) : Prop := "min-".toList <+: name ∨ "max-".toList <+: name

/-- A lower-case name that is looked up among the other features as it is. -/
structure IsLookedUp (name : Text) : Prop where
  some : name ≠ []
  unmarked : ¬ "-webkit-".toList <+: name
  unbounded : ¬ IsBounded name
  free : name ∉ ["orientation".toList, "any-hover".toList, "any-pointer".toList]

/-- What has a field of its own is not kept among the other features. -/
theorem Features.Key.eq_of_extra (extra : ofName name = .extra key) :
    key = Text.lowerAscii name.trim ∧
      key ∉ ["width".toList, "height".toList, "resolution".toList, "device-pixel-ratio".toList, "hover".toList,
        "pointer".toList] := by
  rw [ofName] at extra
  split_ifs at extra with width height resolution hover pointer type
  obtain rfl := Features.Key.extra.inj extra
  refine ⟨rfl, fun mem => ?_⟩
  simp only [List.mem_cons, List.not_mem_nil, or_false, not_or] at resolution mem
  rcases mem with same | same | same | same | same | same
  · exact width same
  · exact height same
  · exact resolution.1 same
  · exact resolution.2.2 same
  · exact hover same
  · exact pointer same

namespace Bound

private theorem ofName_unmarked (unmarked : ¬ "-webkit-".toList <+: name) (unbounded : ¬ IsBounded name) :
    ofName name = (exact, name) := by
  rw [IsBounded, not_or] at unbounded
  simp only [ofName, Text.after?_eq_none.mpr unmarked, Option.getD_none, Text.after?_eq_none.mpr unbounded.1,
    Text.after?_eq_none.mpr unbounded.2]

/-- Behind no bound there is no other bound. -/
theorem not_isBounded_of_exact {base : Text} (exactly : ofName name = (exact, base)) : ¬ IsBounded base := by
  rw [ofName] at exactly
  split at exactly
  · cases exactly
  · cases exactly
  · next least most =>
    obtain rfl := (Prod.mk.inj exactly).2
    rintro (front | front)
    · exact Text.after?_eq_none.mp least front
    · exact Text.after?_eq_none.mp most front

end Bound

/-- What is kept under a name that is looked up holds with the value that is kept. -/
theorem holds_lookedUp (extra : Features.Key.ofName name = .extra key) (looked : IsLookedUp key)
    (found : f.extra.find? key = some value) : featureHolds f key (some value) := by
  have own := (Features.Key.eq_of_extra extra).2
  have free := looked.free
  simp only [List.mem_cons, List.not_mem_nil, or_false, not_or] at own free
  obtain ⟨width, height, resolution, ratio, hover, pointer⟩ := own
  obtain ⟨orientation, anyHover, anyPointer⟩ := free
  have noHover : ¬ ["hover".toList, "any-hover".toList].contains key := fun mem =>
    (List.mem_pair.mp (List.contains_iff_mem.mp mem)).elim hover anyHover
  have noPointer : ¬ ["pointer".toList, "any-pointer".toList].contains key := fun mem =>
    (List.mem_pair.mp (List.contains_iff_mem.mp mem)).elim pointer anyPointer
  have discrete : discreteHolds f key (some value) = true := by
    rw [discreteHolds, if_neg orientation, if_neg noHover, if_neg noPointer, found]
    exact beq_self_eq_true value
  rw [featureHolds, Bound.ofName_unmarked looked.unmarked looked.unbounded]
  dsimp only
  rw [if_neg width, if_neg height, if_neg resolution, if_neg ratio, discrete]
  rfl

/-- What is kept under the orientation, or under a name with a bound, is not read. -/
theorem featureHolds_unread (unread : key = "orientation".toList ∨ IsBounded key) {extra : Fields Text}
    (same : ∀ other, other ≠ key → extra.find? other = f.extra.find? other) (name : Text) (value : Option Text) :
    featureHolds { f with extra } name value = featureHolds f name value := by
  rw [featureHolds, featureHolds]
  -- Only where no bound stands in front are the other features read, and never under a name that has one.
  rcases named : Bound.ofName name with ⟨bound, base⟩
  cases bound with
  | exact =>
    have discrete : discreteHolds { f with extra } base value = discreteHolds f base value := by
      unfold discreteHolds
      by_cases orientation : base = "orientation".toList
      · rw [if_pos orientation, if_pos orientation]
        rfl
      · have other : base ≠ key := fun read =>
          unread.elim (fun key => orientation (read.trans key)) (read ▸ Bound.not_isBounded_of_exact named)
        dsimp only
        rw [same base other]
        rfl
    dsimp only
    rw [discrete]
  | least => rfl
  | most => rfl

/-- Where all features come to the same, all descriptors do. -/
theorem satisfy_congr_features (same : ∀ name value, featureHolds g name value = featureHolds f name value)
    (medium : g.mediaType = f.mediaType) (d : Text) : g.satisfy d = f.satisfy d := by
  have parts : Part.holds g = Part.holds f := by
    funext p
    cases p with
    | mediaType name => rw [Part.holds, Part.holds, medium]
    | feature name value => exact same name value
    | invalid => rfl
  have queries : Query.holds g = Query.holds f := by
    funext q
    rw [Query.holds, Query.holds, parts]
  rw [Features.satisfy, Features.satisfy, QueryList.holds, QueryList.holds, queries]

/-- A feature with no field of its own can always be set, to any letters, digits and hyphens. If its name is looked up
as it is, the feature with the value holds afterwards. By the orientation and by a name with a bound nothing changes,
whatever is asked: the orientation follows from the size, and bounds are for the sizes and the resolution. Without a
name there is no feature. -/
theorem satisfy_set (f : Features) (names : IsPlainText name) (values : IsPlainText value)
    (extra : Features.Key.ofName name = .extra key) :
    ∃ changed, f.set name value = .ok changed ∧
      (IsLookedUp key → changed.satisfy (featureText name value)) ∧
      (key = "orientation".toList ∨ IsBounded key → ∀ d, changed.satisfy d = f.satisfy d) ∧
      (key = [] → ∀ g : Features, g.satisfy (featureText name value) = false) := by
  obtain ⟨small, -⟩ := Features.Key.eq_of_extra extra
  rw [trim_plain names] at small
  have read := ofText_featureText (isPlainText_lowerAscii names) (isPlainText_lowerAscii values)
  rw [← small] at read
  refine ⟨{ f with extra := f.extra.insert key (Text.lowerAscii value) }, ?_, fun looked => ?_, fun unread => ?_,
    fun none g => ?_⟩
  · rw [Features.set, extra, Features.set?, trim_plain values]
  · rw [satisfy_featureText _ names values, ← small, read, if_neg looked.some]
    refine holds_lookedUp extra looked ?_
    exact (Fields.find?_insert ..).trans (if_pos rfl)
  · refine satisfy_congr_features (featureHolds_unread unread fun other distinct => ?_) rfl
    rw [Fields.find?_insert, if_neg (Ne.symm distinct)]
  · rw [satisfy_featureText _ names values, ← small, read, if_pos none]
    rfl

theorem satisfy_set_scheme :
    (∃ changed, ({} : Features).set "Prefers-Color-Scheme".toList "DARK".toList = .ok changed ∧
      changed.satisfy "(Prefers-Color-Scheme: DARK)".toList) ∧
    (∃ changed, ({} : Features).set "min-color".toList "8".toList = .ok changed ∧
      ∀ d, changed.satisfy d = ({} : Features).satisfy d) := by
  have plain {t : Text} (characters : t.all isTypeChar) : IsPlainText t := List.all_eq_true.mp characters
  constructor
  · have extra : Features.Key.ofName "Prefers-Color-Scheme".toList = .extra "prefers-color-scheme".toList := by decide
    have dark : IsPlainText "DARK".toList := plain (by decide)
    obtain ⟨changed, set, read, -⟩ := satisfy_set {} (plain (by decide)) dark extra
    exact ⟨changed, set, read ⟨by decide, by decide, not_or.mpr ⟨by decide, by decide⟩, by decide⟩⟩
  · have extra : Features.Key.ofName "min-color".toList = .extra "min-color".toList := by decide
    have eight : IsPlainText "8".toList := plain (by decide)
    obtain ⟨changed, set, -, unread, -⟩ := satisfy_set {} (plain (by decide)) eight extra
    exact ⟨changed, set, unread (.inr (.inl (by decide)))⟩

/-- An orientation can be set, but the one that follows from the size is read. -/
theorem orientation_unread :
    "orientation".toList.all isTypeChar ∧ "portrait".toList.all isTypeChar ∧
      Features.Key.ofName "orientation".toList = .extra "orientation".toList ∧
      ∃ changed, ({} : Features).set "orientation".toList "portrait".toList = .ok changed ∧
        changed.satisfy "(orientation: portrait)".toList = false :=
  ⟨by decide, by decide, by decide, _, rfl, by decide +kernel⟩

end MediaWatch.Media
