import MediaWatch.Value.Basic

/-! # Reading values

Arrays and objects are the same in every notation for values; what differs is how blanks, names and
scalars are written, and whether a comma may stand before the closing bracket. A `Lexicon` holds
these rules.
-/

namespace MediaWatch.Value

/-- The lexical rules of one notation. Each reader gives what it read and what follows. -/
structure Lexicon where
  /-- What follows the blanks and comments at the front; nothing if a comment is not closed. -/
  skip : Text → Option Text
  /-- A word, number or string. -/
  scalar : Text → Option (Value × Text)
  /-- The name of an entry. -/
  name : Text → Option (Text × Text)
  /-- Whether a comma may stand after the last item. -/
  trailingComma : Bool

mutual

/-- The value at the front of a text. The first argument bounds the number of steps. -/
def readValue (lexicon : Lexicon) : Nat → Text → Option (Value × Text)
  | 0, _ => none
  | steps + 1, t =>
    match t with
    | '[' :: rest => do
      let (items, rest) ← readItems lexicon steps true (← lexicon.skip rest)
      some (array items, rest)
    | '\x7b' :: rest => do
      let (fields, rest) ← readEntries lexicon steps true (← lexicon.skip rest)
      some (object fields, rest)
    | _ => lexicon.scalar t

/-- The items up to the closing bracket, which may come at once if `mayClose`. -/
def readItems (lexicon : Lexicon) : Nat → Bool → Text → Option (List Value × Text)
  | 0, _, _ => none
  | steps + 1, mayClose, t =>
    match t with
    | ']' :: rest => if mayClose then some ([], rest) else none
    | _ => do
      let (item, rest) ← readValue lexicon steps t
      match ← lexicon.skip rest with
      | ']' :: rest => some ([item], rest)
      | ',' :: rest =>
        let (items, rest) ← readItems lexicon steps lexicon.trailingComma (← lexicon.skip rest)
        some (item :: items, rest)
      | _ => none

/-- The entries up to the closing brace, which may come at once if `mayClose`. -/
def readEntries (lexicon : Lexicon) : Nat → Bool → Text → Option (List (Text × Value) × Text)
  | 0, _, _ => none
  | steps + 1, mayClose, t =>
    match t with
    | '\x7d' :: rest => if mayClose then some ([], rest) else none
    | _ => do
      let (name, rest) ← lexicon.name t
      match ← lexicon.skip rest with
      | ':' :: rest =>
        let (value, rest) ← readValue lexicon steps (← lexicon.skip rest)
        match ← lexicon.skip rest with
        | '\x7d' :: rest => some ([(name, value)], rest)
        | ',' :: rest =>
          let (entries, rest) ←
            readEntries lexicon steps lexicon.trailingComma (← lexicon.skip rest)
          some ((name, value) :: entries, rest)
        | _ => none
      | _ => none

end

/-- The value that a whole text denotes, with the entries of its objects as written. Two steps a
character are enough, since every second step takes one. -/
def Lexicon.read? (lexicon : Lexicon) (t : Text) : Option Value := do
  let (value, rest) ← readValue lexicon (2 * t.length + 2) (← lexicon.skip t)
  match ← lexicon.skip rest with
  | [] => some value
  | _ => none

def isHexDigit (c : Char) : Bool :=
  c.isDigit || ('a' ≤ c && c ≤ 'f') || ('A' ≤ c && c ≤ 'F')

def hexDigitValue (c : Char) : Nat :=
  if c.isDigit then c.toNat - '0'.toNat else c.toLower.toNat - 'a'.toNat + 10

def hexValue (digits : Text) : Nat := digits.foldl (fun n c => 16 * n + hexDigitValue c) 0

/-- The number that exactly `count` hexadecimal digits denote, and what follows them. -/
def readHex? (count : Nat) (t : Text) : Option (Nat × Text) :=
  let digits := t.take count
  if digits.length = count ∧ digits.all isHexDigit then some (hexValue digits, t.drop count) else none

end MediaWatch.Value
