import MediaWatch.Proofs.Media.Constants
import MediaWatch.Proofs.Text.Pieces

/-! # How descriptors are read

A descriptor that is not blank is cut at its commas, and each item at its words `and`. What an item comes to can be
read off its parts, each of them a descriptor of its own, unless it starts with a keyword.
-/

namespace MediaWatch

namespace Text

variable {k t : Text}

/-- What is found in front of the small letters of a text stands there, in some case. -/
theorem exists_of_after? {rest : Text} (found : after? (k ++ " ".toList) (lowerAscii t) = some rest) :
    ∃ x u, t = x ++ ' ' :: u ∧ lowerAscii x = k := by
  have split := (List.isPrefixOf?_eq_some_iff_append_eq.mp found).symm
  rw [List.append_assoc] at split
  obtain ⟨x, u, rfl, letters, later⟩ := List.map_eq_append_iff.mp split
  obtain ⟨c, u, rfl, space, -⟩ := List.map_eq_cons_iff.mp later
  obtain rfl : c = ' ' := (toLower_eq_iff (by decide)).mp space
  exact ⟨x, u, rfl, letters⟩

end Text

namespace Media

variable {f : Features} {d t : Text}

/-- No keyword is taken off the front of an item. -/
def IsBare (t : Text) : Prop := Query.keyword (Text.lowerAscii t) = (false, Text.lowerAscii t)

instance (t : Text) : Decidable (IsBare t) := inferInstanceAs (Decidable (_ = _))

/-- A text is read without a keyword if none stands in front of it with a space behind. -/
theorem isBare_of_absent
    (absent : ∀ k ∈ ["not".toList, "only".toList], ∀ x u, t = x ++ ' ' :: u →
      ¬ Text.sameAsciiLetters x k) : IsBare t := by
  have none : ∀ k ∈ ["not".toList, "only".toList], Text.lowerAscii k = k →
      Text.after? (k ++ " ".toList) (Text.lowerAscii t) = none := by
    intro k mem small
    by_contra found
    obtain ⟨rest, found⟩ := Option.ne_none_iff_exists'.mp found
    obtain ⟨x, u, split, letters⟩ := Text.exists_of_after? found
    exact absent k mem x u split (beq_iff_eq.mpr (letters.trans small.symm))
  have notNot := none "not".toList (by decide) (by decide)
  have notOnly := none "only".toList (by decide) (by decide)
  rw [IsBare, Query.keyword]
  split
  · next found => exact absurd (notNot.symm.trans found) nofun
  · next found => exact absurd (notOnly.symm.trans found) nofun
  · rfl

/-- A text is read without a keyword if none stands in front of it. -/
theorem isBare_of_front
    (front : ∀ x u, t = x ++ u → Text.Stops u → ∀ k ∈ ["not".toList, "only".toList], ¬ Text.sameAsciiLetters x k) :
    IsBare t := by
  apply isBare_of_absent
  intro k mem x u split
  refine front x _ split ?_ k mem
  rintro c ⟨⟩
  exact .inl (by decide)

theorem query_trim (t : Text) : Query.ofText t.trim = Query.ofText t := by
  rw [Query.ofText, Query.ofText, Text.trim_trim]

theorem satisfy_trim (f : Features) (d : Text) : f.satisfy d.trim = f.satisfy d := by
  rw [Features.satisfy, Features.satisfy, QueryList.ofText, QueryList.ofText, Text.trim_trim]

/-- A descriptor holds if one of the items between its commas does. -/
theorem satisfy_eq (f : Features) (some : d.trim ≠ []) :
    f.satisfy d = (Text.cut Text.comma d.trim).any fun item => (Query.ofText item).holds f := by
  rw [Features.satisfy, QueryList.ofText, Text.cut_comma_trim]
  simp only [List.isEmpty_eq_false_iff.mpr some, Bool.false_eq_true, ↓reduceIte, QueryList.holds, List.any_map,
    Function.comp_def, query_trim]

/-- Without a keyword, an item holds if all of its parts do. -/
theorem holds_bare (f : Features) (bare : IsBare t.trim) (some : t.trim ≠ []) :
    (Query.ofText t).holds f =
      (Text.cut Text.andWord t.trim).all fun part => (Part.ofText (Text.lowerAscii part)).holds f := by
  have letters : Text.lowerAscii t.trim ≠ [] := by simpa [Text.lowerAscii] using some
  rw [IsBare] at bare
  simp only [Query.ofText, bare, Query.holds, List.isEmpty_eq_false_iff.mpr letters, Bool.false_eq_true, ↓reduceIte]
  rw [Text.andWord, Text.cut_spaced_lowerAscii]
  simp only [List.map_map, List.all_map, Function.comp_def, Bool.bne_false]

/-- A descriptor of one part says what the part says. -/
theorem satisfy_part (f : Features) (bare : IsBare d.trim) (some : d.trim ≠ []) (commaless : ',' ∉ d.trim)
    (single : Text.andWord.Misses d.trim) : f.satisfy d = (Part.ofText (Text.lowerAscii d)).holds f := by
  have trimmed : Part.ofText (Text.lowerAscii d.trim) = Part.ofText (Text.lowerAscii d) := by
    rw [Part.ofText, Part.ofText, Text.lowerAscii_trim, Text.trim_trim]
  rw [satisfy_of_commaless f some commaless, query_trim, holds_bare f bare some, Text.cut_of_misses single, ← trimmed]
  simp

/-! ## Texts without blanks around -/

theorem satisfy_item (f : Features) (closed : Text.Closed t) (commaless : ',' ∉ t) :
    f.satisfy t = (Query.ofText t).holds f := by
  have trimmed := Text.trim_closed closed
  rw [satisfy_of_commaless f (by rw [trimmed]; exact closed.some) (by rwa [trimmed]), trimmed]

theorem holds_parts (f : Features) (bare : IsBare t) (closed : Text.Closed t) :
    (Query.ofText t).holds f =
      (Text.cut Text.andWord t).all fun part => (Part.ofText (Text.lowerAscii part)).holds f := by
  have trimmed := Text.trim_closed closed
  rw [holds_bare f (by rwa [trimmed]) (by rw [trimmed]; exact closed.some), trimmed]

end Media

end MediaWatch
