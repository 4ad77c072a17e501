/-! # Text

All text of the library is a list of characters, so that every reader and printer is a recursion
on the data. This module holds the operations that know ASCII only.
-/

namespace MediaWatch

/-- Text as the list of its characters. -/
abbrev Text := List Char

namespace Text

/-- ASCII capitals become small; every other character stays. -/
def lowerAscii (t : Text) : Text := t.map Char.toLower

/-- Whether two texts agree up to the case of ASCII letters. -/
def sameAsciiLetters (s t : Text) : Bool := lowerAscii s == lowerAscii t

/-- What follows `start`, if the text begins with it. -/
def after? (start t : Text) : Option Text := start.isPrefixOf? t

/-- What comes before `ending`, if the text ends with it. -/
def before? (ending t : Text) : Option Text :=
  (ending.reverse.isPrefixOf? t.reverse).map List.reverse

/-- The pieces between the occurrences of a character; there is always one more than occurrences. -/
def pieces (sep : Char) (t : Text) : List Text := t.splitOn sep

/-- The text cut at the first occurrence of `sep`, which neither part keeps. -/
def cutAt? (sep : Text) : Text → Option (Text × Text)
  | [] => if sep.isEmpty then some ([], []) else none
  | c :: rest =>
    match after? sep (c :: rest) with
    | some later => some ([], later)
    | none => (cutAt? sep rest).map fun (earlier, later) => (c :: earlier, later)

/-- The texts joined, with `sep` between neighbours. -/
def joined (sep : Text) : List Text → Text
  | [] => []
  | [t] => t
  | t :: u :: rest => t ++ sep ++ joined sep (u :: rest)

/-- The text, filled up with spaces on the right to at least `width` characters. -/
def padRight (width : Nat) (t : Text) : Text := t ++ List.replicate (width - t.length) ' '

def byteCount : Text → Nat
  | [] => 0
  | c :: rest => byteCount rest + c.utf8Size

def ofNat (n : Nat) : Text := Nat.toDigits 10 n

/-- The decimal digits of an integer, with a minus sign when it is negative. -/
def ofInt (n : Int) : Text := if n < 0 then '-' :: ofNat n.natAbs else ofNat n.natAbs

def ofBool (b : Bool) : Text := if b then "true".toList else "false".toList

example : cutAt? "=>".toList "a=>b=>c".toList = some ("a".toList, "b=>c".toList) := by decide
example : byteCount "aé€".toList = 6 := by decide
example : before? "px".toList "12px".toList = some "12".toList := by decide
example : pieces '|' "a||b".toList = ["a".toList, [], "b".toList] := by decide

end Text

end MediaWatch
