import MediaWatch.Shortcut.Basic
import MediaWatch.Text.Basic

/-! # Conditions

A condition is a tree of constants, leaves and groups. A leaf watches one list, a live view of a media
descriptor; a group holds when all, or any, of its children do. Every list, leaf and group has an
identity of its own, under which listeners register with it, so that two conditions can look the
same and be different.
-/

namespace MediaWatch

/-- The identity of something that listeners can register with. -/
abbrev NodeId := Nat

/-- A live view of a media descriptor. -/
structure MediaList where
  id : NodeId
  descriptor : Text
deriving DecidableEq, Repr

/-- What the lists in view say at the moment. -/
abbrev View := MediaList → Bool

/-- How a group combines its children. -/
inductive Junction where
  | all
  | any
deriving DecidableEq, Repr

/-- What stands between the children of a group in its written form. -/
def Junction.separator : Junction → Text
  | all => " and ".toList
  | any => ", ".toList

/-- A condition. -/
inductive Condition where
  | always
  | never
  | leaf (id : NodeId) (list : MediaList) (inverted : Bool)
  | group (id : NodeId) (junction : Junction) (children : List Condition)

namespace Condition

instance : Inhabited Condition := ⟨never⟩

def constant (holds : Bool) : Condition := if holds then always else never

/-- The identity of a condition; a constant has none. -/
def id? : Condition → Option NodeId
  | always => none
  | never => none
  | leaf id _ _ => some id
  | group id _ _ => some id

def children : Condition → List Condition
  | group _ _ cs => cs
  | _ => []

mutual

/-- Whether the condition holds, read off the lists. -/
def holds (view : View) : Condition → Bool
  | always => true
  | never => false
  | leaf _ list inverted => view list != inverted
  | group _ .all cs => allHold view cs
  | group _ .any cs => anyHolds view cs

def allHold (view : View) : List Condition → Bool
  | [] => true
  | c :: cs => holds view c && allHold view cs

def anyHolds (view : View) : List Condition → Bool
  | [] => false
  | c :: cs => holds view c || anyHolds view cs

end

theorem allHold_eq (view : View) (cs : List Condition) : allHold view cs = cs.all (holds view) := by
  induction cs with
  | nil => rfl
  | cons c cs ih => simp [allHold, ih]

theorem anyHolds_eq (view : View) (cs : List Condition) : anyHolds view cs = cs.any (holds view) := by
  induction cs with
  | nil => rfl
  | cons c cs ih => simp [anyHolds, ih]

mutual

def text : Condition → Text
  | always => allText
  | never => notAllText
  | leaf _ list inverted => if inverted then "not ".toList ++ list.descriptor else list.descriptor
  | group _ junction cs => Text.joined junction.separator (texts cs)

def texts : List Condition → List Text
  | [] => []
  | c :: cs => text c :: texts cs

end

theorem texts_eq (cs : List Condition) : texts cs = cs.map text := by
  induction cs with
  | nil => rfl
  | cons c cs ih => simp [texts, ih]

/-- Whether the condition is written like the constant that always holds. -/
def isAlways : Condition → Bool
  | always => true
  | never => false
  | c => Text.sameAsciiLetters c.text allText

/-- Whether the condition is written like the constant that never holds. -/
def isNever : Condition → Bool
  | always => false
  | never => true
  | c => Text.sameAsciiLetters c.text notAllText

/-- Whether two conditions are the same instance; constants of one kind always are. -/
def same : Condition → Condition → Bool
  | always, always => true
  | never, never => true
  | leaf i _ _, leaf j _ _ => i == j
  | group i .all _, group j .all _ => i == j
  | group i .any _, group j .any _ => i == j
  | _, _ => false

mutual

/-- Whether a node with this identity is part of the condition. -/
def mentions (id : NodeId) : Condition → Bool
  | always => false
  | never => false
  | leaf own list _ => own == id || list.id == id
  | group own _ cs => own == id || anyMentions id cs

def anyMentions (id : NodeId) : List Condition → Bool
  | [] => false
  | c :: cs => mentions id c || anyMentions id cs

end

end Condition

end MediaWatch
