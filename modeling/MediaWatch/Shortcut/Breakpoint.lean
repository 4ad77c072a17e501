import MediaWatch.Fault
import MediaWatch.Fields
import MediaWatch.Shortcut.Basic
import MediaWatch.Text.LowerCase

/-! # Breakpoints

Named ranges of the viewport's width. A name is made of Latin letters and is the same in any case. A
plus in front of it means the range and everything wider, a minus the range and everything narrower.
-/

namespace MediaWatch

/-- A range of widths in CSS pixels, both ends included. -/
structure Breakpoint where
  min : UInt32
  max : UInt32
deriving DecidableEq, Repr

namespace Breakpoint

def minQuery (b : Breakpoint) : Text :=
  "(min-width: ".toList ++ Text.ofNat b.min.toNat ++ "px)".toList

def maxQuery (b : Breakpoint) : Text :=
  "(max-width: ".toList ++ Text.ofNat b.max.toNat ++ "px)".toList

def rangeQuery (b : Breakpoint) : Text := b.minQuery ++ " and ".toList ++ b.maxQuery

def text (b : Breakpoint) : Text :=
  Text.ofNat b.min.toNat ++ "..=".toList ++ Text.ofNat b.max.toNat ++ "px".toList

/-- The upper bound of a range without end. -/
def widest : UInt32 := 999999

end Breakpoint

/-- Breakpoints under their lower-case names. -/
structure Breakpoints where
  table : Fields Breakpoint

namespace Breakpoints

def standard : Breakpoints :=
  ⟨Fields.ofEntries
    [("xs".toList, ⟨1, 767⟩), ("sm".toList, ⟨768, 991⟩), ("md".toList, ⟨992, 1199⟩),
     ("lg".toList, ⟨1200, 1599⟩), ("xl".toList, ⟨1600, Breakpoint.widest⟩)]⟩

theorem sorted_standard : standard.table.Sorted := by
  rw [standard]
  dsimp only
  exact Fields.sorted_ofEntries _

/-- Whether the character is a small Latin letter. -/
def isNameChar (c : Char) : Bool := 'a' ≤ c && c ≤ 'z'

def isName (t : Text) : Bool := !t.isEmpty && t.all isNameChar

/-- The breakpoint of a name, in any case. -/
def get? (b : Breakpoints) (name : Text) : Option Breakpoint := b.table.find? name.lower

/-- The breakpoints with a range under a name, in place of any that was there. -/
def add (b : Breakpoints) (name : Text) (range : Breakpoint) : Except Fault Breakpoints :=
  if isName name.lower then .ok ⟨b.table.insert name.lower range⟩
  else .error (.breakpointName name)

def remove (b : Breakpoints) (name : Text) : Breakpoints := ⟨b.table.erase name.lower⟩

/-- Whether the first named range is shown before the second: by lower bound, then by name. -/
def precedes (a b : Text × Breakpoint) : Bool :=
  a.2.min < b.2.min || (a.2.min == b.2.min && !(b.1 < a.1))

/-- All breakpoints in the order in which they are shown. -/
def entries (b : Breakpoints) : List (Text × Breakpoint) := b.table.mergeSort precedes

/-- What a lower-case token stands for, if it names a breakpoint. -/
def resolve? (b : Breakpoints) (token : Text) : Option Shortcut :=
  let (query, name) : (Breakpoint → Text) × Text :=
    match token with
    | '+' :: name => (Breakpoint.minQuery, name)
    | '-' :: name => (Breakpoint.maxQuery, name)
    | name => (Breakpoint.rangeQuery, name)
  if isName name then (b.get? name).map fun range => .descriptor (query range) else none

end Breakpoints

end MediaWatch
