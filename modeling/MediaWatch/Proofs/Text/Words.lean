import MediaWatch.Text.Separator
import Mathlib.Data.List.Basic

/-! # Words and blanks

A word of a text is a longest piece without blanks. Blanks have no case, so comparing texts up to the case of
ASCII letters keeps every blank in its place.
-/

namespace MediaWatch.Text

/-- The words of a text: what stands between its blanks. -/
def words (t : Text) : List Text := (t.splitOnP isBlank).filter fun w => !w.isEmpty

variable {c d : Char} {s t u w x : Text}

/-! ## Case -/

/-- No visible ASCII character is blank. -/
theorem not_isBlank_of_le (low : 33 ≤ c.toNat) (high : c.toNat ≤ 126) : isBlank c = false := by
  have visible : ∀ n < 127, 33 ≤ n → (blanks.any fun range => range.1 ≤ n && n ≤ range.2) = false := by decide
  exact visible c.toNat (Nat.lt_succ_of_le high) low

/-- ASCII letters and digits are neither blank nor commas. -/
theorem solid_of_isAlphanum (alphanumeric : c.isAlphanum) : isBlank c = false ∧ c ≠ ',' := by
  change (decide (65 ≤ c.toNat ∧ c.toNat ≤ 90) || decide (97 ≤ c.toNat) && decide (c.toNat ≤ 122) ||
    decide (48 ≤ c.toNat) && decide (c.toNat ≤ 57)) = true at alphanumeric
  simp only [Bool.or_eq_true, Bool.and_eq_true, decide_eq_true_eq] at alphanumeric
  refine ⟨not_isBlank_of_le (by omega) (by omega), ?_⟩
  rintro rfl
  have comma : (',' : Char).toNat = 44 := rfl
  omega

/-- A capital and its small letter are 32 apart. -/
theorem toNat_toLower (upper : c.val ≥ 'A'.val ∧ c.val ≤ 'Z'.val) : c.toLower.toNat = c.toNat + 32 := by
  have high : c.toNat ≤ 90 := upper.2
  have small : c.toNat + 32 < 2 ^ 32 := by omega
  refine (congrArg Char.toNat (dif_pos upper : c.toLower = _)).trans ?_
  exact (UInt32.toNat_add ..).trans (Nat.mod_eq_of_lt small)

/-- The small letter of a character is blank if and only if the character is. -/
theorem isBlank_toLower (c : Char) : isBlank c.toLower = isBlank c := by
  by_cases upper : c.val ≥ 'A'.val ∧ c.val ≤ 'Z'.val
  · have low : 65 ≤ c.toNat := upper.1
    have high : c.toNat ≤ 90 := upper.2
    have shifted := toNat_toLower upper
    rw [not_isBlank_of_le (by omega) (by omega), not_isBlank_of_le (by omega) (by omega)]
  · have same : c.toLower = c := dif_neg upper
    rw [same]

/-- A small letter stays what it is. -/
theorem toLower_toLower (c : Char) : c.toLower.toLower = c.toLower := by
  by_cases upper : c.val ≥ 'A'.val ∧ c.val ≤ 'Z'.val
  · refine dif_neg fun again => ?_
    have low : 65 ≤ c.toNat := upper.1
    have high : c.toLower.toNat ≤ 90 := again.2
    have shifted := toNat_toLower upper
    omega
  · have same : c.toLower = c := dif_neg upper
    rw [same, same]

/-- Below the capitals, a character is the small letter of itself alone. -/
theorem toLower_eq_iff (low : d.toNat < 65) : c.toLower = d ↔ c = d := by
  by_cases upper : c.val ≥ 'A'.val ∧ c.val ≤ 'Z'.val
  · have least : 65 ≤ c.toNat := upper.1
    have shifted := toNat_toLower upper
    constructor
    · rintro rfl
      omega
    · rintro rfl
      omega
  · have same : c.toLower = c := dif_neg upper
    rw [same]

theorem isAlphanum_toLower (c : Char) : c.toLower.isAlphanum = c.isAlphanum := by
  by_cases upper : c.val ≥ 'A'.val ∧ c.val ≤ 'Z'.val
  · have least : 65 ≤ c.toNat := upper.1
    have most : c.toNat ≤ 90 := upper.2
    have shifted := toNat_toLower upper
    change (decide (65 ≤ c.toLower.toNat ∧ c.toLower.toNat ≤ 90) ||
        decide (97 ≤ c.toLower.toNat) && decide (c.toLower.toNat ≤ 122) ||
        decide (48 ≤ c.toLower.toNat) && decide (c.toLower.toNat ≤ 57)) =
      (decide (65 ≤ c.toNat ∧ c.toNat ≤ 90) || decide (97 ≤ c.toNat) && decide (c.toNat ≤ 122) ||
        decide (48 ≤ c.toNat) && decide (c.toNat ≤ 57))
    rw [shifted, Bool.eq_iff_iff]
    simp only [Bool.or_eq_true, Bool.and_eq_true, decide_eq_true_eq]
    omega
  · have same : c.toLower = c := dif_neg upper
    rw [same]

theorem lowerAscii_lowerAscii (t : Text) : lowerAscii (lowerAscii t) = lowerAscii t := by
  simp only [lowerAscii, List.map_map, Function.comp_def, toLower_toLower]

theorem length_of_sameAsciiLetters (same : sameAsciiLetters x w) : x.length = w.length := by
  have lowers : lowerAscii x = lowerAscii w := beq_iff_eq.mp same
  simpa [lowerAscii] using congrArg List.length lowers

/-- A character of a text has the small letter of some character of any text that it agrees with. -/
theorem toLower_mem_of_sameAsciiLetters (same : sameAsciiLetters x w) (mem : c ∈ x) : c.toLower ∈ lowerAscii w := by
  have lowers : lowerAscii x = lowerAscii w := beq_iff_eq.mp same
  rw [← lowers]
  exact List.mem_map_of_mem mem

/-- A text that agrees with a word up to case has no blanks either. -/
theorem not_isBlank_of_sameAsciiLetters (same : sameAsciiLetters x w) (solid : ∀ c ∈ w, isBlank c = false) :
    ∀ c ∈ x, isBlank c = false := by
  intro c mem
  obtain ⟨d, letter, lower⟩ := List.mem_map.mp (toLower_mem_of_sameAsciiLetters same mem)
  rw [← isBlank_toLower, ← lower, isBlank_toLower]
  exact solid d letter

/-- A check of its characters shows that a text is without blanks. -/
theorem solid_of_all (solid : t.all fun c => !isBlank c) : ∀ c ∈ t, isBlank c = false := by
  intro c mem
  exact (Bool.not_eq_true' _).mp (List.all_eq_true.mp solid c mem)

/-! ## Runs of blanks -/

theorem blankRun_append (blank : ∀ c ∈ s, isBlank c) : blankRun (s ++ t) = s.length + blankRun t := by
  rw [blankRun, List.takeWhile_append_of_pos blank, List.length_append]
  rfl

/-- A text that starts with something that is not blank has no blanks in front. -/
theorem blankRun_eq_zero (solid : ∀ c ∈ t.head?, isBlank c = false) : blankRun t = 0 := by
  cases t with
  | nil => rfl
  | cons c rest =>
    have first : isBlank c = false := solid c rfl
    rw [blankRun, List.takeWhile_cons, first]
    rfl

/-- A text that has blanks in front starts with one. -/
theorem head?_of_blankRun (run : blankRun t ≠ 0) : ∃ c ∈ t.head?, isBlank c := by
  by_contra none
  push Not at none
  refine run (blankRun_eq_zero fun c first => ?_)
  exact Bool.eq_false_iff.mpr (none c first)

/-- A text is its blanks in front and the rest, which does not start with a blank. -/
theorem exists_blankRun (t : Text) : ∃ a b, t = a ++ b ∧ (∀ c ∈ a, isBlank c) ∧
    (∀ c ∈ b.head?, isBlank c = false) ∧ blankRun t = a.length := by
  refine ⟨t.takeWhile isBlank, t.dropWhile isBlank, List.takeWhile_append_dropWhile.symm, ?_, ?_, rfl⟩
  · intro c mem
    exact List.all_eq_true.mp List.all_takeWhile c mem
  · intro c first
    have solid := List.head?_dropWhile_not isBlank t
    rw [Option.mem_def.mp first] at solid
    exact solid

/-- Blanks in front of what does not start with one are trimmed. -/
theorem trimStart_append (blank : ∀ c ∈ s, isBlank c) (starts : ∀ c ∈ t.head?, isBlank c = false) :
    (s ++ t).trimStart = t := by
  rw [trimStart, List.dropWhile_append_of_pos blank]
  cases t with
  | nil => rfl
  | cons c rest =>
    rw [List.dropWhile_cons_of_neg]
    rw [starts c rfl]
    exact Bool.false_ne_true

/-! ## Words -/

theorem words_append_cons (blank : isBlank c) (s t : Text) : words (s ++ c :: t) = words s ++ words t := by
  rw [words, List.splitOnP_append_cons s t blank, List.filter_append]
  rfl

theorem words_append (blank : ∀ c ∈ s, isBlank c) (t : Text) : words (s ++ t) = words t := by
  induction s with
  | nil => rfl
  | cons c rest ih =>
    obtain ⟨first, others⟩ := List.forall_mem_cons.mp blank
    rw [List.cons_append, ← ih others]
    exact words_append_cons first [] (rest ++ t)

/-- What stands between blanks, and has none itself, is a word. -/
theorem words_of_solid (solid : ∀ c ∈ x, isBlank c = false) (some : x ≠ []) : words x = [x] := by
  rw [words, List.splitOnP_eq_singleton solid]
  simp [some]

/-- Before blanks and behind them are words of their own. -/
theorem words_blanks (some : u ≠ []) (blank : ∀ c ∈ u, isBlank c) (s t : Text) :
    words (s ++ (u ++ t)) = words s ++ words t := by
  obtain ⟨c, rest, rfl⟩ := List.exists_cons_of_ne_nil some
  obtain ⟨first, others⟩ := List.forall_mem_cons.mp blank
  rw [List.cons_append, words_append_cons first, words_append others]

end MediaWatch.Text
