import MediaWatch.Value.Reader
import MediaWatch.Decimal.Read
import MediaWatch.Text.Blank
import MediaWatch.Text.Letter
import MediaWatch.Text.Mark
import MediaWatch.Text.Digit
import MediaWatch.Text.Diacritic
import MediaWatch.Text.Newcomer

/-! # Literals

The lenient notation for values that rule payloads are written in: comments, either kind of quote,
bare names as keys, a trailing comma, hexadecimal numbers, and more escapes.
-/

namespace MediaWatch.Value.Literal

def isLineEnd (c : Char) : Bool := c = '\n' || c = '\r' || c = '\u2028' || c = '\u2029'

/-- Code points of the general category Zs. -/
def spaceSeparators : CharRanges :=
  [(0x20, 0x20), (0xa0, 0xa0), (0x1680, 0x1680), (0x2000, 0x200a), (0x202f, 0x202f),
   (0x205f, 0x205f), (0x3000, 0x3000)]

/-- Blanks between the tokens of a literal. -/
def isGap (c : Char) : Bool :=
  c = '\t' || c = '\x0b' || c = '\x0c' || c = '\ufeff' || spaceSeparators.contains c || isLineEnd c

/-- Where a skipper stands: between tokens, in a comment up to the end of the line, in one up to its
closing mark, or past the first character of such a mark. -/
inductive Gap where
  | open
  | line
  | block
  | blockStar

/-- What follows the blanks and comments at the front. -/
def skipFrom : Gap → Text → Option Text
  | .open, '/' :: '/' :: rest => skipFrom .line rest
  | .open, '/' :: '*' :: rest => skipFrom .block rest
  | .open, c :: rest => if isGap c then skipFrom .open rest else some (c :: rest)
  | .open, [] => some []
  | .line, c :: rest => if isLineEnd c then skipFrom .open rest else skipFrom .line rest
  | .line, [] => some []
  | .block, c :: rest => skipFrom (if c = '*' then .blockStar else .block) rest
  | .blockStar, c :: rest =>
    skipFrom (if c = '/' then .open else if c = '*' then .blockStar else .block) rest
  | .block, [] => none
  | .blockStar, [] => none

/-- What a surrogate pair stands for: the bits of both halves joined over the first supplementary
code point. -/
def paired? (high low : Nat) : Option Char :=
  let code := ((high - 0xd800) <<< 10) ||| (low - 0xdc00 + 0x10000)
  if code < 0x110000 then some (Char.ofNat code) else none

/-- What follows the escaped line ends at the front. -/
def skipLineEnds : Text → Text
  | '\\' :: '\r' :: '\n' :: rest => skipLineEnds rest
  | '\\' :: c :: rest => if isLineEnd c then skipLineEnds rest else '\\' :: c :: rest
  | t => t

/-- The character that follows a backslash and `u`, and what follows it. What `skip` passes over may
stand between the halves of a surrogate pair. -/
def escapedUnit? (skip : Text → Text) (t : Text) : Option (Char × Text) := do
  let (unit, rest) ← readHex? 4 t
  if 0xd800 ≤ unit ∧ unit < 0xdc00 then
    let (low, rest) ← readHex? 4 (← Text.after? "\\u".toList (skip rest))
    if 0xdc00 ≤ low ∧ low < 0xe000 then (paired? unit low).map fun c => (c, rest) else none
  else if 0xdc00 ≤ unit ∧ unit < 0xe000 then none
  else some (Char.ofNat unit, rest)

/-- The character that a character after a backslash stands for, line ends and numeric escapes
aside. -/
def escapedChar? (c : Char) : Option Char :=
  if c = 'b' then some '\x08'
  else if c = 'f' then some '\x0c'
  else if c = 'n' then some '\n'
  else if c = 'r' then some '\r'
  else if c = 't' then some '\t'
  else if c = 'v' then some '\x0b'
  else if c = '0' then some '\x00'
  else if c.isDigit then none
  else some c

/-- One character of a string after a backslash; a line end stands for nothing. -/
def escape? : Text → Option (Text × Text)
  | 'u' :: rest => (escapedUnit? skipLineEnds rest).map fun (c, rest) => ([c], rest)
  | 'x' :: rest => (readHex? 2 rest).map fun (n, rest) => ([Char.ofNat n], rest)
  | '\r' :: '\n' :: rest => some ([], rest)
  | c :: rest => if isLineEnd c then some ([], rest) else (escapedChar? c).map fun c => ([c], rest)
  | [] => none

/-- The rest of a string up to the quote that closes it. The first argument bounds the characters
read. -/
def stringRest? (quote : Char) : Nat → Text → Option (Text × Text)
  | 0, _ => none
  | steps + 1, t =>
    match t with
    | [] => none
    | '\\' :: rest => do
      let (cs, rest) ← escape? rest
      let (more, rest) ← stringRest? quote steps rest
      some (cs ++ more, rest)
    | c :: rest =>
      if c = quote then some ([], rest)
      else if isLineEnd c then none
      else (stringRest? quote steps rest).map fun (cs, rest) => (c :: cs, rest)

/-- A string in single or double quotes. -/
def string? : Text → Option (Text × Text)
  | '"' :: rest => stringRest? '"' (rest.length + 1) rest
  | '\'' :: rest => stringRest? '\'' (rest.length + 1) rest
  | _ => none

def isNameStart (c : Char) : Bool :=
  c = '$' || c = '_' || Text.isLetter c || Text.isLetterNumber c || Text.newLetters.contains c

def isNamePart (c : Char) : Bool :=
  isNameStart c || Text.isNonspacingMark c || Text.isSpacingDiacritic c || Text.isDecimalDigit c ||
    Text.newMarks.contains c || Text.isConnector c || c = '\u200c' || c = '\u200d'

/-- The rest of a bare name, whose characters may be written as numeric escapes. The first argument
bounds the characters read. -/
def nameRest? : Nat → Text → Option (Text × Text)
  | 0, _ => none
  | steps + 1, t =>
    match t with
    | '\\' :: 'u' :: rest => do
      let (c, rest) ← escapedUnit? id rest
      let (cs, rest) ← nameRest? steps rest
      some (c :: cs, rest)
    | c :: rest =>
      if isNamePart c then (nameRest? steps rest).map fun (cs, rest) => (c :: cs, rest)
      else some ([], c :: rest)
    | [] => some ([], [])

/-- A key: a string or a bare name. -/
def name? (t : Text) : Option (Text × Text) :=
  match t with
  | c :: _ =>
    if isNameStart c || (c = '\\' && (Text.after? "\\u".toList t).isSome) then
      nameRest? (t.length + 1) t
    else string? t
  | [] => none

/-- The text of a number without its sign, and what follows: hexadecimal or decimal digits, or a
word. -/
def numeral? (t : Text) : Option (Text × Text) :=
  let cut (n : Nat) : Text × Text := (t.take n, t.drop n)
  let word (w : Text) : Option (Text × Text) := (Text.after? w t).map fun rest => (w, rest)
  let hex : Option (Text × Text) :=
    match t with
    | '0' :: x :: rest =>
      let digits := rest.takeWhile isHexDigit
      if x.toLower = 'x' ∧ !digits.isEmpty then some (cut (2 + digits.length)) else none
    | _ => none
  let decimal : Option (Text × Text) :=
    let whole := if t.head? = some '0' then 1 else (t.takeWhile Char.isDigit).length
    let (point, part) := match t.drop whole with
      | '.' :: rest => (1, (rest.takeWhile Char.isDigit).length)
      | _ => (0, 0)
    if whole = 0 ∧ part = 0 then none
    else
      let body := whole + point + part
      match t.drop body with
      | c :: rest =>
        let (_, unsigned) := Decimal.unsigned rest
        let digits := (unsigned.takeWhile Char.isDigit).length
        if c.toLower = 'e' ∧ digits ≠ 0 then
          some (cut (body + 1 + (rest.length - unsigned.length) + digits))
        else some (cut body)
      | [] => some (cut body)
  hex <|> decimal <|> word "Infinity".toList <|> word "NaN".toList

/-- What a number's text stands for. Unsigned hexadecimal must fit 32 bits and a whole number 64 with
a sign; infinities and no number stand for null; nothing else may overflow. -/
def numberValue? (t : Text) : Option Value :=
  let hex : Option Text :=
    Text.after? "0x".toList t <|> Text.after? "0X".toList t
  match hex with
  | some digits => if hexValue digits < Nat.pow 2 32 then some (int (hexValue digits)) else none
  | none =>
    if ["Infinity".toList, "-Infinity".toList, "NaN".toList, "-NaN".toList].contains t then some null
    else if t.any fun c => c = '.' || c.toLower = 'e' then
      (Decimal.read? t).bind fun x => if x.isFinite then some (float x) else none
    else (Decimal.readInt? t).bind fun n =>
      if -Int.pow 2 63 ≤ n ∧ n < Int.pow 2 63 then some (int n) else none

/-- A number with an optional sign directly in front. -/
def number? (t : Text) : Option (Value × Text) := do
  let (sign, rest) := match t with
    | '-' :: rest => (['-'], rest)
    | '+' :: rest => (['+'], rest)
    | _ => ([], t)
  let (numeral, rest) ← numeral? rest
  let value ← numberValue? (sign ++ numeral)
  some (value, rest)

/-- The word with its value, if the text begins with it. -/
def word? (word : Text) (value : Value) (t : Text) : Option (Value × Text) :=
  (Text.after? word t).map fun rest => (value, rest)

def lexicon : Lexicon where
  skip := skipFrom .open
  scalar t :=
    word? "null".toList null t <|> word? "true".toList (bool true) t <|>
      word? "false".toList (bool false) t <|>
      ((string? t).map fun (s, rest) => (string s, rest)) <|> number? t
  name := name?
  trailingComma := true

/-- The value that a literal denotes; of entries under one name the last counts. -/
def read? (t : Text) : Option Value := (lexicon.read? (Text.trim t)).map canonical

end MediaWatch.Value.Literal
