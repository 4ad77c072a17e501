import MediaWatch.Value.Document

/-! # Flowing documents

The notation for values that people edit by hand, in the form in which it looks like a document. It
differs in what a line means: a string may go on over several lines, whose breaks fold into blanks,
while a name has to end on the line on which it starts. It knows more escapes, but none for half a
character; control characters must not stand in it at all. A number too large for binary64 is no
mistake but text.
-/

namespace MediaWatch.Value.Flow

def isAllowed (c : Char) : Bool :=
  c = '\t' || c = '\n' || c = '\r' || (' ' ≤ c && c ≤ '~') || c = '\u0085' ||
    ('\u00a0' ≤ c && c ≤ '\ufffd') || 0x10000 ≤ c.toNat

def isInline (c : Char) : Bool := c = ' ' || c = '\t'

def isBreak (c : Char) : Bool :=
  c = '\n' || c = '\r' || c = '\u0085' || c = '\u2028' || c = '\u2029'

/-- Blanks between the tokens of a document. -/
def isGap (c : Char) : Bool := isInline c || isBreak c

/-- The line break at the front with what it stands for, and what follows it. -/
def lineBreak? : Text → Option (Char × Text)
  | '\r' :: '\n' :: rest => some ('\n', rest)
  | c :: rest =>
    if !isBreak c then none
    else if c = '\u2028' ∨ c = '\u2029' then some (c, rest)
    else some ('\n', rest)
  | [] => none

/-- Whether a mark between documents stands at the front. -/
def isMark (t : Text) : Bool :=
  ["---".toList, "...".toList].any fun mark =>
    match Text.after? mark t with
    | some rest => (rest.head?.map isGap).getD true
    | none => false

/-- The line breaks at the front, between which blanks do not count; whether what follows them stands
at the start of a line; and what follows. The first argument bounds the characters read. -/
def breaks : Nat → Bool → Text → Text × Bool × Text
  | 0, start, t => ([], start, t)
  | steps + 1, start, t =>
    match lineBreak? t, t with
    | some (c, rest), _ =>
      let (more, start, rest) := breaks steps true rest
      (c :: more, start, rest)
    | none, c :: rest => if isInline c then breaks steps false rest else ([], start, t)
    | none, [] => ([], start, [])

/-- What the line breaks within a string come to: a single one is a blank, and of several the first
is dropped, unless it is one that separates lines or paragraphs. -/
def folded (first : Char) (later : Text) : Text :=
  if first ≠ '\n' then first :: later else if later.isEmpty then [' '] else later

def escapedLetter? (c : Char) : Option Char :=
  [('0', '\x00'), ('a', '\x07'), ('b', '\x08'), ('t', '\t'), ('\t', '\t'), ('n', '\n'),
    ('v', '\x0b'), ('f', '\x0c'), ('r', '\r'), ('e', '\x1b'), (' ', ' '), ('"', '"'), ('/', '/'),
    ('\\', '\\'), ('\'', '\''), ('N', '\u0085'), ('_', '\u00a0'), ('L', '\u2028'),
    ('P', '\u2029')].lookup c

def escape? : Text → Option (Char × Text)
  | [] => none
  | c :: rest =>
    match [('x', 2), ('u', 4), ('U', 8)].lookup c with
    | some count =>
      (readHex? count rest).bind fun (n, rest) =>
        if n.isValidChar then some (Char.ofNat n, rest) else none
    | none => (escapedLetter? c).map fun c => (c, rest)

/-- The rest of a string after its opening quote. The first argument bounds the characters read. -/
def stringRest? : Nat → Text → Option (Text × Text)
  | 0, _ => none
  | steps + 1, t =>
    let goOn (t : Text) : Option (Text × Text) := stringRest? steps t
    let put (front : Text) (t : Text) : Option (Text × Text) :=
      (goOn t).map fun (cs, rest) => (front ++ cs, rest)
    let newLine (front : Text) (start : Bool) (t : Text) : Option (Text × Text) :=
      if start && isMark t then none else put front t
    match t with
    | [] => none
    | '"' :: rest => some ([], rest)
    | '\\' :: rest =>
      match lineBreak? rest with
      | some (_, rest) =>
        let (later, start, rest) := breaks rest.length true rest
        newLine later start rest
      | none => (escape? rest).bind fun (c, rest) => put [c] rest
    | c :: rest =>
      if isGap c then
        match breaks t.length false t with
        | ([], _, rest) => put (t.takeWhile isInline) rest
        | (first :: later, start, rest) => newLine (folded first later) start rest
      else put [c] rest

def string? : Text → Option (Text × Text)
  | '"' :: rest => stringRest? (rest.length + 1) rest
  | _ => none

/-- How many bytes a name may take with its quotes and the blanks up to its colon. -/
def nameReach : Nat := 1024

/-- A name: a string that ends on its line and has its colon there, not too far off. -/
def name? (t : Text) : Option (Text × Text) := do
  let (name, rest) ← string? t
  let next := rest.dropWhile isInline
  let front := t.take (t.length - next.length)
  if Text.byteCount front ≤ nameReach ∧ !front.any isBreak ∧ next.head? = some ':' then
    some (name, rest)
  else none

/-- A number, or the text of one that is too large for binary64. -/
def number? (t : Text) : Option (Value × Text) :=
  (Document.numeral? t).map fun (numeral, rest) =>
    (numeral.value?.getD (string (t.take (t.length - rest.length))), rest)

/-- Where on a line a reader of blanks stands. -/
inductive Place where
  /-- Before its first character. -/
  | start
  /-- Behind some character of it, outside remarks. -/
  | middle
  /-- Behind the sign that begins a remark. -/
  | remark
deriving DecidableEq

/-- What follows the blanks, line breaks and remarks at the front. A line may begin with the mark of an
encoding, and whether tabulators count as blanks is for the caller to say. -/
def skip (tabs : Bool) : Place → Text → Text
  | _, [] => []
  | place, c :: rest =>
    if isBreak c then skip tabs .start rest
    else if place = .remark || c = '#' then skip tabs .remark rest
    else if c = ' ' || (tabs && c = '\t') || (place = .start && c = '\ufeff') then
      skip tabs .middle rest
    else c :: rest

def lexicon : Lexicon where
  skip t := some (skip true .middle t)
  scalar t :=
    ((string? t).map fun (s, rest) => (string s, rest)) <|> Document.wordValue? t <|> number? t
  name := name?
  trailingComma := true

/-- Whether nothing but blanks and remarks follows a document on its last line and below. A tabulator
cannot indent a line there. -/
def isClosed (t : Text) : Bool := (skip false .middle (t.dropWhile isInline)).isEmpty

/-- The text from the document on, if all characters of the stream may stand there. A tabulator cannot
indent the document. -/
def stream? (t : Text) : Option Text := if t.all isAllowed then some (skip false .start t) else none

def isEmpty (t : Text) : Bool := (stream? t).any List.isEmpty

/-- The value that a stream of one document holds, with the entries of its objects as written. -/
def read? (t : Text) : Option Value := do
  let t ← stream? t
  let (value, rest) ← readValue lexicon (2 * t.length + 2) t
  if isClosed rest then some value else none

example : (string? "\"a \n b\\u0041\" c".toList) = some ("a bA".toList, " c".toList) := by
  decide +kernel
example : skip false .start " # a\n\ufeff \tb".toList = "\tb".toList := by decide +kernel
example : (name? "\"a\"\n: 1".toList).isNone := by decide +kernel

end MediaWatch.Value.Flow
