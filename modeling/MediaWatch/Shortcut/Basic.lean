import MediaWatch.Text.Basic

/-! # Shortcuts

A shortcut stands for a media descriptor or for a constant. The two constants have written forms,
`all` and `not all`, by which they are known everywhere.
-/

namespace MediaWatch

/-- The written form of what always holds. -/
def allText : Text := "all".toList

/-- The written form of what never holds. -/
def notAllText : Text := "not all".toList

/-- What a shortcut stands for. -/
inductive Shortcut where
  | descriptor (text : Text)
  | constant (holds : Bool)
deriving DecidableEq, Repr

namespace Shortcut

/-- The term that is put in place of the shortcut. -/
def term : Shortcut → Text
  | descriptor text => text
  | constant true => allText
  | constant false => notAllText

def text : Shortcut → Text
  | descriptor text => text
  | constant holds => Text.ofBool holds

end Shortcut

end MediaWatch
