import MediaWatch.Media.Query
import MediaWatch.Proofs.Text.Words
import MediaWatch.Shortcut.Basic

/-! # The written constants

A descriptor that is written like one of the two constants, in any ASCII case, holds in every snapshot or in
none.
-/

namespace MediaWatch

namespace Text

theorem dropWhile_lowerAscii (t : Text) : (lowerAscii t).dropWhile isBlank = lowerAscii (t.dropWhile isBlank) := by
  have same : isBlank ∘ Char.toLower = isBlank := funext isBlank_toLower
  rw [lowerAscii, List.dropWhile_map, same]
  rfl

/-- Blanks at either end are trimmed in any case. -/
theorem lowerAscii_trim (t : Text) : lowerAscii t.trim = (lowerAscii t).trim := by
  have reverse : ∀ u : Text, (lowerAscii u).reverse = lowerAscii u.reverse := fun u => List.map_reverse.symm
  rw [trim, trim, trimEnd, trimEnd, trimStart, trimStart, dropWhile_lowerAscii, reverse, dropWhile_lowerAscii, reverse]

end Text

namespace Media

variable {d : Text}

/-- A descriptor without commas is one query. -/
theorem satisfy_of_commaless (f : Features) (some : d.trim ≠ []) (commaless : ',' ∉ d.trim) :
    f.satisfy d = (Query.ofText d.trim).holds f := by
  rw [Features.satisfy, QueryList.ofText]
  simp only [List.isEmpty_eq_false_iff.mpr some, Bool.false_eq_true, ↓reduceIte]
  rw [Text.pieces, List.splitOn_eq_singleton commaless]
  simp [QueryList.holds]

/-- What a query says depends on its small letters. -/
theorem query_congr {t : Text} (same : Text.sameAsciiLetters d t) : Query.ofText d.trim = Query.ofText t.trim := by
  have lowers : Text.lowerAscii d = Text.lowerAscii t := beq_iff_eq.mp same
  rw [Query.ofText, Query.ofText, Text.lowerAscii_trim, Text.lowerAscii_trim, Text.lowerAscii_trim,
    Text.lowerAscii_trim, lowers]

/-- What a descriptor without commas says depends on its small letters. -/
theorem satisfy_congr {t : Text} (f : Features) (same : Text.sameAsciiLetters d t)
    (some : (Text.lowerAscii t).trim ≠ [])
    (commaless : ',' ∉ (Text.lowerAscii t).trim) : f.satisfy d = (Query.ofText t.trim).holds f := by
  have lowers : Text.lowerAscii d = Text.lowerAscii t := beq_iff_eq.mp same
  have trimmed : Text.lowerAscii d.trim = (Text.lowerAscii t).trim := by rw [Text.lowerAscii_trim, lowers]
  rw [satisfy_of_commaless f ?_ ?_, query_congr same]
  · intro none
    rw [none] at trimmed
    exact some trimmed.symm
  · intro comma
    apply commaless
    rw [← trimmed]
    exact List.mem_map.mpr ⟨',', comma, by decide⟩

/-- What is written like `all` always holds. -/
theorem satisfy_all (f : Features) (same : Text.sameAsciiLetters d allText) : f.satisfy d = true := by
  rw [satisfy_congr f same (by decide) (by decide)]
  rfl

/-- What is written like `not all` never holds. -/
theorem satisfy_notAll (f : Features) (same : Text.sameAsciiLetters d notAllText) : f.satisfy d = false := by
  rw [satisfy_congr f same (by decide) (by decide)]
  rfl

end Media

end MediaWatch
