import MediaWatch.Proofs.Media.Items

/-! # A feature with its value

A name and a value of letters, digits and hyphens, in parentheses with a colon in between, are one part of a descriptor,
and are read as they are written.
-/

namespace MediaWatch.Media

variable {c : Char} {name value : Text}

def featureText (name value : Text) : Text := '(' :: (name ++ ": ".toList ++ (value ++ [')']))

/-- A text of letters, digits and hyphens. -/
abbrev IsPlainText (t : Text) : Prop := ∀ c ∈ t, isTypeChar c

theorem isPlainText_lowerAscii {t : Text} (plain : IsPlainText t) : IsPlainText (Text.lowerAscii t) := by
  intro c mem
  obtain ⟨d, among, rfl⟩ := List.mem_map.mp mem
  exact (isTypeChar_toLower d).trans (plain d among)

theorem trim_plain {t : Text} (plain : IsPlainText t) : t.trim = t := by
  by_cases none : t = []
  · rw [none]
    rfl
  · exact Text.trim_closed
      ⟨none, fun c head => (solid_of_isTypeChar (plain c (List.mem_of_mem_head? head))).1,
        fun c last => (solid_of_isTypeChar (plain c (List.mem_of_mem_getLast? last))).1⟩

theorem lowerAscii_featureText (name value : Text) :
    Text.lowerAscii (featureText name value) = featureText (Text.lowerAscii name) (Text.lowerAscii value) := by
  simp only [featureText, Text.lowerAscii, List.map_cons, List.map_append]
  rfl

private theorem closed_featureText (name value : Text) : Text.Closed (featureText name value) where
  some := List.cons_ne_nil _ _
  starts := by
    rintro c ⟨⟩
    decide
  ends := by
    rw [featureText, ← List.append_assoc, ← List.cons_append, List.getLast?_concat]
    rintro c ⟨⟩
    decide

private theorem mem_featureText (mem : c ∈ featureText name value) : c ∈ "(: )".toList ∨ c ∈ name ∨ c ∈ value := by
  simp only [featureText, List.mem_cons, List.mem_append, List.not_mem_nil, or_false] at mem
  rcases mem with rfl | (mem | mem) | mem | rfl
  · exact .inl (by decide)
  · exact .inr (.inl mem)
  · exact .inl ((by decide : ": ".toList ⊆ "(: )".toList) mem)
  · exact .inr (.inr mem)
  · exact .inl (by decide)

/-- Between its parentheses a feature with its value has one blank. -/
theorem words_featureText (names : IsPlainText name) (values : IsPlainText value) :
    Text.words (featureText name value) = ['(' :: (name ++ [':']), value ++ [')']] := by
  have label : ∀ c ∈ '(' :: (name ++ [':']), Text.isBlank c = false := by
    refine List.forall_mem_cons.mpr ⟨by decide, List.forall_mem_append.mpr ⟨fun c mem => ?_, ?_⟩⟩
    · exact (solid_of_isTypeChar (names c mem)).1
    · exact List.forall_mem_singleton.mpr (by decide)
  have content : ∀ c ∈ value ++ [')'], Text.isBlank c = false := by
    refine List.forall_mem_append.mpr ⟨fun c mem => ?_, List.forall_mem_singleton.mpr (by decide)⟩
    exact (solid_of_isTypeChar (values c mem)).1
  have split : featureText name value = ('(' :: (name ++ [':'])) ++ ' ' :: (value ++ [')']) := by
    simp only [featureText, List.cons_append, List.append_assoc]
    rfl
  rw [split, Text.words_append_cons (by decide), Text.words_of_solid label (List.cons_ne_nil _ _),
    Text.words_of_solid content (by simp)]
  rfl

private theorem commaless_featureText (names : IsPlainText name) (values : IsPlainText value) :
    ',' ∉ featureText name value := by
  intro mem
  rcases mem_featureText mem with mem | mem | mem
  · exact absurd mem (by decide)
  · exact (solid_of_isTypeChar (names _ mem)).2 rfl
  · exact (solid_of_isTypeChar (values _ mem)).2 rfl

private theorem plain_featureText (names : IsPlainText name) (values : IsPlainText value) :
    ∀ w ∈ Text.words (featureText name value), ¬ Text.sameAsciiLetters w "and".toList := by
  intro w word same
  rw [words_featureText names values] at word
  have letters {c : Char} (mem : c ∈ w) := Text.toLower_mem_of_sameAsciiLetters same mem
  rcases List.mem_pair.mp word with rfl | rfl
  · exact absurd (letters List.mem_cons_self) (by decide)
  · exact absurd (letters (List.mem_append_right _ List.mem_cons_self)) (by decide)

/-- Nothing in a feature with its value divides a descriptor. -/
theorem satisfy_featureText (f : Features) (names : IsPlainText name) (values : IsPlainText value) :
    f.satisfy (featureText name value) =
      (Part.ofText (featureText (Text.lowerAscii name) (Text.lowerAscii value))).holds f := by
  have closed := closed_featureText name value
  have trimmed := Text.trim_closed closed
  have bare : IsBare (featureText name value) :=
    isBare_of_front fun x u split _ k keyword => not_keyword_of_opened split keyword
  have single : Text.andWord.Misses (featureText name value) :=
    (Text.passes_spaced Text.isKeyword_and closed (plain_featureText names values)).misses
  rw [← lowerAscii_featureText]
  exact satisfy_part f (by rwa [trimmed]) (by rw [trimmed]; exact closed.some)
    (by rw [trimmed]; exact commaless_featureText names values) (by rwa [trimmed])

/-- A feature with its value is read as it is written. -/
theorem ofText_featureText (names : IsPlainText name) (values : IsPlainText value) :
    Part.ofText (featureText name value) = if name = [] then .invalid else .feature name (some value) := by
  have colonless : ∀ q, q ≠ [] → q <:+ name → Text.after? [':'] (q ++ ([':'] ++ ' ' :: value)) = none := by
    intro q some suffix
    obtain ⟨c, rest, rfl⟩ := List.exists_cons_of_ne_nil some
    have char := names c (suffix.mem List.mem_cons_self)
    have other : c ≠ ':' := by
      rintro rfl
      exact absurd char (by decide)
    simp [Text.after?, List.isPrefixOf?, Ne.symm other]
  have cut : Text.cutAt? [':'] (name ++ ([':'] ++ ' ' :: value)) = some (name, ' ' :: value) :=
    Text.cutAt?_append (List.cons_ne_nil _ _) colonless
  have inside : parenthesised? (featureText name value) = some (name ++ ([':'] ++ ' ' :: value)) := by
    rw [parenthesised?_eq_some]
    simp only [featureText, List.append_assoc]
    rfl
  have content : Text.trim (' ' :: value) = value := by
    have around : Text.trim (" ".toList ++ (value ++ [])) = value.trim :=
      Text.trim_around (List.all_eq_true.mp (by decide)) (List.forall_mem_nil _)
    rwa [List.append_nil, trim_plain values] at around
  rw [Part.ofText, Text.trim_closed (closed_featureText name value), inside]
  simp only [Part.ofFeature, cut, trim_plain names, content, List.isEmpty_iff]

theorem isFeature_featureText (some : name ≠ []) (names : IsPlainText name) (values : IsPlainText value) :
    IsFeature (featureText name value) where
  enclosed := ⟨name ++ ": ".toList ++ value, by simp only [featureText, List.append_assoc]⟩
  named := by
    rw [ofText_featureText names values, if_neg some]
    nofun
  commaless := commaless_featureText names values
  plain := plain_featureText names values

end MediaWatch.Media
