import MediaWatch.Value.Reader
import MediaWatch.Decimal.Read

/-! # Documents

The strict notation for values: double quotes only, no comments, no trailing commas, no leading
zeros. A whole number that fits 64 bits, with or without sign, stays whole; every other number is a
binary64 number, as is minus zero.
-/

namespace MediaWatch.Value.Document

/-- Blanks between the tokens of a document. -/
def isGap (c : Char) : Bool := c = ' ' || c = '\t' || c = '\n' || c = '\r'

/-- The word with its value, if the text begins with it. -/
def word? (word : Text) (value : Value) (t : Text) : Option (Value × Text) :=
  (Text.after? word t).map fun rest => (value, rest)

/-- The character that two surrogate code units stand for. -/
def paired (high low : Nat) : Char := Char.ofNat (0x10000 + (high - 0xd800) * 0x400 + (low - 0xdc00))

/-- The character that follows a backslash and `u`, and what follows it. -/
def escapedUnit? (t : Text) : Option (Char × Text) := do
  let (unit, rest) ← readHex? 4 t
  if 0xd800 ≤ unit ∧ unit < 0xdc00 then
    let (low, rest) ← readHex? 4 (← Text.after? "\\u".toList rest)
    if 0xdc00 ≤ low ∧ low < 0xe000 then some (paired unit low, rest) else none
  else if 0xdc00 ≤ unit ∧ unit < 0xe000 then none
  else some (Char.ofNat unit, rest)

def escapedLetter? : Char → Option Char
  | '"' => some '"'
  | '\\' => some '\\'
  | '/' => some '/'
  | 'b' => some '\x08'
  | 'f' => some '\x0c'
  | 'n' => some '\n'
  | 'r' => some '\r'
  | 't' => some '\t'
  | _ => none

/-- The rest of a string after its opening quote. The first argument bounds the characters read. -/
def stringRest? : Nat → Text → Option (Text × Text)
  | 0, _ => none
  | steps + 1, t =>
    match t with
    | '"' :: rest => some ([], rest)
    | '\\' :: 'u' :: rest => do
      let (c, rest) ← escapedUnit? rest
      let (cs, rest) ← stringRest? steps rest
      some (c :: cs, rest)
    | '\\' :: letter :: rest => do
      let c ← escapedLetter? letter
      let (cs, rest) ← stringRest? steps rest
      some (c :: cs, rest)
    | c :: rest =>
      if c = '\\' ∨ c.toNat < 0x20 then none
      else (stringRest? steps rest).map fun (cs, rest) => (c :: cs, rest)
    | [] => none

def string? : Text → Option (Text × Text)
  | '"' :: rest => stringRest? (rest.length + 1) rest
  | _ => none

def digits? (t : Text) : Option (Text × Text) :=
  let (digits, rest) := Decimal.digitRun t
  if digits.isEmpty then none else some (digits, rest)

/-- The digits before the point: zero alone, or digits that do not start with zero. -/
def whole? (t : Text) : Option (Text × Text) := do
  let (digits, rest) ← digits? t
  if digits.head? = some '0' ∧ digits.length ≠ 1 then none else some (digits, rest)

/-- The digits after a point; none at all if there is no point. -/
def fraction? : Text → Option (Text × Text)
  | '.' :: rest => digits? rest
  | t => some ([], t)

/-- The exponent; without one, nothing. -/
def exponent? : Text → Option (Option Int × Text)
  | c :: rest =>
    if c.toLower = 'e' then do
      let (negative, rest) := Decimal.unsigned rest
      let (digits, rest) ← digits? rest
      let magnitude : Int := Decimal.digitsValue digits
      some (some (if negative then -magnitude else magnitude), rest)
    else some (none, c :: rest)
  | [] => some (none, [])

/-- The parts of a number as written. -/
structure Numeral where
  negative : Bool
  whole : Text
  fraction : Text
  exponent : Option Int

/-- The parts of the number at the front, and what follows it. -/
def numeral? (t : Text) : Option (Numeral × Text) := do
  let (negative, rest) := match t with
    | '-' :: rest => (true, rest)
    | _ => (false, t)
  let (whole, rest) ← whole? rest
  let (fraction, rest) ← fraction? rest
  let (exponent, rest) ← exponent? rest
  some (⟨negative, whole, fraction, exponent⟩, rest)

/-- What a number stands for, unless it is too large for binary64. -/
def Numeral.value? (n : Numeral) : Option Value :=
  let magnitude := Decimal.nearest (n.whole ++ n.fraction) (n.exponent.getD 0 - n.fraction.length)
  let count := Decimal.digitsValue n.whole
  let isWhole := n.fraction.isEmpty && n.exponent.isNone
  if isWhole ∧ !n.negative ∧ count < Nat.pow 2 64 then some (int count)
  else if isWhole ∧ n.negative ∧ 0 < count ∧ count ≤ Nat.pow 2 63 then some (int (-(count : Int)))
  else if magnitude.isFinite then some (float (if n.negative then -magnitude else magnitude))
  else none

/-- A number. One too large for binary64 is refused. -/
def number? (t : Text) : Option (Value × Text) := do
  let (numeral, rest) ← numeral? t
  some (← numeral.value?, rest)

/-- The value of the word at the front, and what follows it. -/
def wordValue? (t : Text) : Option (Value × Text) :=
  word? "null".toList null t <|> word? "true".toList (bool true) t <|>
    word? "false".toList (bool false) t

def lexicon : Lexicon where
  skip t := some (t.dropWhile isGap)
  scalar t :=
    ((string? t).map fun (s, rest) => (string s, rest)) <|> wordValue? t <|> number? t
  name := string?
  trailingComma := false

/-- The value that a document holds, with the entries of its objects as written. -/
def read? (t : Text) : Option Value := lexicon.read? t

end MediaWatch.Value.Document
