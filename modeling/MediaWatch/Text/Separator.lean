import MediaWatch.Text.Blank

/-! # Cutting text at separators

A separator is given by the length it takes at the front of a text, zero when there is none. Text is
cut from left to right at the separators met; what one separator took is not looked at again, so
there is always one more piece than separators.
-/

namespace MediaWatch.Text

/-- The length that a separator takes at the front of a text; zero means that none is there. -/
abbrev Separator := Text → Nat

/-- Puts a character in front of the first piece. -/
def growFirst (c : Char) : List Text → List Text
  | [] => [[c]]
  | piece :: others => (c :: piece) :: others

/-- The pieces of a text whose first `skip` characters belong to a separator already met. -/
def cutFrom (sep : Separator) : Nat → Text → List Text
  | _, [] => [[]]
  | skip + 1, _ :: rest => cutFrom sep skip rest
  | 0, c :: rest =>
    match sep (c :: rest) with
    | 0 => growFirst c (cutFrom sep 0 rest)
    | taken + 1 => [] :: cutFrom sep taken rest

/-- The pieces of a text between its separators. -/
def cut (sep : Separator) (t : Text) : List Text := cutFrom sep 0 t

/-- A comma with the blanks on either side of it. -/
def comma : Separator := fun t =>
  match t.drop (blankRun t) with
  | ',' :: later => blankRun t + 1 + blankRun later
  | _ => 0

/-- A word, in any ASCII case, with at least one blank on either side of it and all of them. -/
def spaced (word : Text) : Separator := fun t =>
  let later := t.drop (blankRun t)
  let rest := later.drop word.length
  if blankRun t ≠ 0 ∧ sameAsciiLetters (later.take word.length) word ∧ blankRun rest ≠ 0 then
    blankRun t + word.length + blankRun rest
  else 0

def Separator.orElse (first second : Separator) : Separator := fun t =>
  match first t with
  | 0 => second t
  | taken + 1 => taken + 1

def andWord : Separator := spaced "and".toList

def commaOrWord : Separator := comma.orElse (spaced "or".toList)

/-- What follows `word` and at least one blank, if the text begins with the word in any ASCII
case. -/
def afterWord? (word t : Text) : Option Text :=
  let rest := t.drop word.length
  if sameAsciiLetters (t.take word.length) word ∧ blankRun rest ≠ 0 then some (trimStart rest)
  else none

private theorem growFirst_ne_nil (c : Char) (pieces : List Text) : growFirst c pieces ≠ [] := by
  cases pieces <;> simp [growFirst]

private theorem cutFrom_ne_nil (sep : Separator) (skip : Nat) (t : Text) : cutFrom sep skip t ≠ [] := by
  induction t generalizing skip with
  | nil => cases skip <;> simp [cutFrom]
  | cons c rest ih =>
    cases skip with
    | succ skip => exact ih skip
    | zero =>
      rw [cutFrom]
      split
      · exact growFirst_ne_nil _ _
      · simp

/-- Cutting leaves at least one piece. -/
theorem cut_ne_nil (sep : Separator) (t : Text) : cut sep t ≠ [] := cutFrom_ne_nil sep 0 t

example : cut commaOrWord "a , b OR c,d".toList = ["a".toList, "b".toList, "c".toList, "d".toList] :=
  by decide
example : cut andWord "a and  band and\tc".toList = ["a".toList, "band".toList, "c".toList] := by
  decide

end MediaWatch.Text
