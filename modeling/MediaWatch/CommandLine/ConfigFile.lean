import MediaWatch.Config.Reader

/-! # Configuration files

How a file that declares shortcuts is named, read and refused. The extension of its name decides
which notation it is written in.
-/

namespace MediaWatch.CommandLine

/-- Why a file cannot be read. -/
inductive FileFault where
  | missing
  | directory
  | notDirectory
  | forbidden
  | longName
  /-- The bytes of the file are no UTF-8. -/
  | notText
deriving DecidableEq, Repr

def FileFault.message : FileFault → Text
  | missing => "No such file or directory (os error 2)".toList
  | directory => "Is a directory (os error 21)".toList
  | notDirectory => "Not a directory (os error 20)".toList
  | forbidden => "Permission denied (os error 13)".toList
  | longName => "File name too long (os error 36)".toList
  | notText => "stream did not contain valid UTF-8".toList

/-- The last part of a path that is not empty and not a dot. -/
def fileName? (path : Text) : Option Text :=
  ((Text.pieces '/' path).filter fun part => part ≠ [] && part ≠ ['.']).getLast?

/-- What follows the last dot of a file's name, unless the name begins with that dot. -/
def extension? (path : Text) : Option Text := do
  let name ← fileName? path
  if name = "..".toList then none
  else
    match (Text.pieces '.' name).reverse with
    | ending :: start :: rest => if start = [] ∧ rest = [] then none else some ending
    | _ => none

/-- The notation of a file: strict if its extension is `json` in any case, otherwise lenient. -/
def dialectOf (path : Text) : Dialect :=
  match extension? path with
  | some ending => if Text.sameAsciiLetters ending "json".toList then .strict else .lenient
  | none => .lenient

example : dialectOf "shortcuts.JSON".toList = .strict := by decide
example : dialectOf ".json".toList = .lenient := by decide

end MediaWatch.CommandLine
