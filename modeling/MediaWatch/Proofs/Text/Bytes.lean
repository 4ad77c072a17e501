import Mathlib.Data.List.Lex
import Mathlib.Tactic.SplitIfs
import MediaWatch.Text.Basic

/-! # Texts as bytes

In UTF-8 the order of texts by their characters is the order by their bytes.
-/

namespace MediaWatch.Text

def bytes (t : Text) : List UInt8 := t.flatMap String.utf8EncodeChar

/-- The bytes of a smaller character come first, whatever follows. -/
theorem encode_append_lt {c d : Char} (less : c < d) (x y : List UInt8) :
    String.utf8EncodeChar c ++ x < String.utf8EncodeChar d ++ y := by
  have less : c.val.toNat < d.val.toNat := less
  have bound : d.val.toNat < 1114112 := by
    rcases d.valid with low | ⟨-, high⟩
    · exact Nat.lt_trans low (by decide)
    · exact high
  simp only [String.utf8EncodeChar]
  generalize c.val.toNat = m at *
  generalize d.val.toNat = n at *
  -- Where the lengths differ the first byte decides; otherwise the first one that differs does.
  split_ifs <;>
    simp (disch := omega) only [List.cons_append, List.nil_append, List.cons_lt_cons_iff, UInt8.lt_iff_toNat_lt,
      ← UInt8.toNat_inj, UInt8.toNat_ofNat', Nat.mod_eq_of_lt] <;> omega

private theorem encode_ne_nil (c : Char) : String.utf8EncodeChar c ≠ [] := by
  refine List.ne_nil_of_length_pos ?_
  rw [String.length_utf8EncodeChar]
  exact c.utf8Size_pos

/-- Texts in order are in order as bytes. -/
theorem bytes_lt {s t : Text} (less : s < t) : s.bytes < t.bytes := by
  induction less with
  | @nil c rest =>
    obtain ⟨b, bs, encoded⟩ := List.exists_cons_of_ne_nil (encode_ne_nil c)
    rw [bytes, bytes, List.flatMap_cons, encoded]
    exact .nil
  | cons less ih => exact List.append_left_lt ih
  | rel less => exact encode_append_lt less _ _

example : "z".toList < "é".toList ∧ bytes "z".toList < bytes "é".toList := by decide

end MediaWatch.Text
