import MediaWatch.Text.Basic

/-! # Reading decimal numbers

The text of a binary64 number: an optional sign, then either digits with at most one point and an
optional exponent, or one of the words for infinity and for no number. The value is the nearest
binary64 number.
-/

namespace MediaWatch.Decimal

def digitsValue (digits : Text) : Nat :=
  digits.foldl (fun n c => 10 * n + (c.toNat - '0'.toNat)) 0

/-- The longest run of ASCII digits at the front, and what follows it. -/
def digitRun (t : Text) : Text × Text := (t.takeWhile Char.isDigit, t.dropWhile Char.isDigit)

/-- The text without a sign in front, and whether that was a minus. -/
def unsigned : Text → Bool × Text
  | '-' :: rest => (true, rest)
  | '+' :: rest => (false, rest)
  | t => (false, t)

/-- The integer written as an optional sign and at least one digit, and nothing else. -/
def readInt? (t : Text) : Option Int :=
  let (negative, digits) := unsigned t
  if digits.isEmpty || !digits.all Char.isDigit then none
  else if negative then some (-(digitsValue digits : Int)) else some (digitsValue digits)

/-- The binary64 number nearest to `digits * 10 ^ exponent`. Beyond 400 places from the leading digit
the result is settled, and the power of ten is not built. -/
def nearest (digits : Text) (exponent : Int) : Float :=
  let significant := digits.dropWhile (· == '0')
  let places : Int := significant.length + exponent
  if significant.isEmpty || places < -400 then 0.0
  else if 400 < places then 1.0 / 0.0
  else Float.ofScientific (digitsValue significant) (exponent < 0) exponent.natAbs

/-- The exponent at the end of a number: nothing at all stands for zero. -/
def readExponent? : Text → Option Int
  | [] => some 0
  | c :: rest => if c.toLower = 'e' then readInt? rest else none

/-- The number written as digits with at most one point, then at most one exponent. -/
def readMagnitude? (t : Text) : Option Float :=
  let (whole, rest) := digitRun t
  let (part, rest) := match rest with
    | '.' :: later => digitRun later
    | _ => ([], rest)
  if whole.isEmpty && part.isEmpty then none
  else (readExponent? rest).map fun e => nearest (whole ++ part) (e - part.length)

def read? (t : Text) : Option Float :=
  let (negative, rest) := unsigned t
  let word := Text.lowerAscii rest
  let magnitude :=
    if word = "inf".toList ∨ word = "infinity".toList then some (1.0 / 0.0)
    else if word = "nan".toList then some (0.0 / 0.0)
    else readMagnitude? rest
  if negative then magnitude.map Float.neg else magnitude

example : read? "1e400".toList == some (1.0 / 0.0) := by decide +kernel
example : read? "-.5e1".toList == some (-5.0) := by decide +kernel
example : (read? ".".toList).isNone ∧ (read? "1e".toList).isNone := by decide +kernel

end MediaWatch.Decimal
