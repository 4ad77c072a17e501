import MediaWatch.Text.Basic
import MediaWatch.Text.Letter
import MediaWatch.Text.Mark
import MediaWatch.Text.Digit
import MediaWatch.Text.Newcomer

/-! # Words and folding

The characters that words are made of, and comparison with a lower-case ASCII pattern up to simple
case folding. Two characters outside ASCII fold into it: the Kelvin sign and the long s.
-/

namespace MediaWatch.Text

/-- Whether the character can stand inside a word: a letter, a mark, a digit, a connector or a joiner
that is no newcomer. -/
def isWordChar (c : Char) : Bool :=
  (isLetter c || isDecimalDigit c || isConnector c || isMark c || isLetterNumber c ||
    enclosedLetters.contains c || c = '\u200c' || c = '\u200d') && !newWordChars.contains c

def isWordDigit (c : Char) : Bool := isDecimalDigit c && !newWordChars.contains c

/-- The simple case folding of the characters that fold into ASCII. -/
def foldChar (c : Char) : Char :=
  if c = '\u212a' then 'k' else if c = '\u017f' then 's' else c.toLower

/-- What follows `start`, written in lower case, if the text begins with it up to case folding. -/
def afterFolded? (start t : Text) : Option Text :=
  match start, t with
  | [], t => some t
  | _ :: _, [] => none
  | p :: ps, c :: rest => if foldChar c = p then afterFolded? ps rest else none

/-- Whether `word`, written in lower case, occurs in the text up to case folding. -/
def mentions (word : Text) : Text → Bool
  | [] => (afterFolded? word []).isSome
  | c :: rest => (afterFolded? word (c :: rest)).isSome || mentions word rest

/-- Whether `word` occurs in the text exactly as written. -/
def contains (word : Text) : Text → Bool
  | [] => (after? word []).isSome
  | c :: rest => (after? word (c :: rest)).isSome || contains word rest

example : mentions "webos".toList "WebO\u017f".toList := by decide

end MediaWatch.Text
