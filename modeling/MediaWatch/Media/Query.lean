import MediaWatch.Media.Features
import MediaWatch.Text.Separator

/-! # Media queries

A query list is a comma-separated list of queries, any of which is enough. A query is a list of
parts joined by `and`, all of which must hold, with at most one `not` or `only` in front. A part is a
media type or a feature in parentheses; what is neither never holds. A blank list holds everywhere.
-/

namespace MediaWatch.Media

/-- One part of a query. -/
inductive Part where
  | mediaType (name : Text)
  | feature (name : Text) (value : Option Text)
  | invalid
deriving DecidableEq, Repr

/-- Parts that must hold together, or must not if `negated`. -/
structure Query where
  negated : Bool
  parts : List Part
deriving DecidableEq, Repr

/-- Queries of which one must hold. -/
abbrev QueryList := List Query

def isTypeChar (c : Char) : Bool := c.isAlphanum || c = '-'

/-- The inside of a pair of parentheses that encloses the whole text. -/
def parenthesised? (t : Text) : Option Text :=
  (Text.after? ['('] t).bind (Text.before? [')'])

/-- The feature written inside parentheses: a name, and a value after the first colon. -/
def Part.ofFeature (inner : Text) : Part :=
  let (name, value) := match Text.cutAt? [':'] inner with
    | some (name, value) => (name.trim, some value.trim)
    | none => (inner.trim, none)
  if name.isEmpty then invalid else feature name value

def Part.ofText (t : Text) : Part :=
  let t := t.trim
  match parenthesised? t with
  | some inner => ofFeature inner
  | none => if !t.isEmpty && t.all isTypeChar then mediaType t else invalid

/-- A lower-case query without its leading keyword, and whether that was `not`. -/
def Query.keyword (t : Text) : Bool × Text :=
  match Text.after? "not ".toList t, Text.after? "only ".toList t with
  | some rest, _ => (true, rest.trimStart)
  | none, some rest => (false, rest.trimStart)
  | none, none => (false, t)

/-- The query that a text denotes, in any ASCII case. -/
def Query.ofText (t : Text) : Query :=
  let (negated, rest) := keyword (Text.lowerAscii t.trim)
  { negated
    parts := if rest.isEmpty then [.invalid] else (Text.cut Text.andWord rest).map Part.ofText }

def QueryList.ofText (descriptor : Text) : QueryList :=
  let t := descriptor.trim
  if t.isEmpty then [⟨false, [.mediaType "all".toList]⟩]
  else (Text.pieces ',' t).map Query.ofText

/-- How a feature is compared with its value. -/
inductive Bound where
  | least
  | most
  | exact
deriving DecidableEq, Repr

/-- The bound that a feature's name starts with, and the name of the feature proper. A vendor mark in
front is dropped. -/
def Bound.ofName (name : Text) : Bound × Text :=
  let name := (Text.after? "-webkit-".toList name).getD name
  match Text.after? "min-".toList name, Text.after? "max-".toList name with
  | some base, _ => (least, base)
  | none, some base => (most, base)
  | none, none => (exact, name)

/-- Two numbers count as equal when they are less than this apart: the gap above one. -/
def tolerance : Float := 2.220446049250313e-16

/-- Whether a sized feature meets its value. Without a value, and without a bound, it must not be
zero. -/
def Bound.admits (bound : Bound) (actual : Float) (value : Option Text)
    (read? : Text → Option Float) : Bool :=
  match value with
  | none => bound == exact && actual != 0.0
  | some value =>
    match read? value with
    | none => false
    | some expected =>
      match bound with
      | least => expected ≤ actual
      | most => actual ≤ expected
      | exact => (actual - expected).abs < tolerance

/-- Whether a discrete feature, which takes no bound, has its value. -/
def discreteHolds (f : Features) (name : Text) (value : Option Text) : Bool :=
  if name = "orientation".toList then
    match value with
    | none => true
    | some v => v == f.orientation
  else if ["hover".toList, "any-hover".toList].contains name then
    match value with
    | none => f.hover
    | some v => if v = "hover".toList then f.hover else v == "none".toList && !f.hover
  else if ["pointer".toList, "any-pointer".toList].contains name then
    match value with
    | none => f.pointer != .none
    | some v => v == f.pointer.keyword
  else
    match f.extra.find? name, value with
    | some actual, some expected => actual == expected
    | some actual, none => actual != "none".toList && actual != "0".toList
    | none, _ => false

def featureHolds (f : Features) (name : Text) (value : Option Text) : Bool :=
  let (bound, base) := Bound.ofName name
  if base = "width".toList then bound.admits f.width value length?
  else if base = "height".toList then bound.admits f.height value length?
  else if base = "resolution".toList then bound.admits f.resolution value resolution?
  else if base = "device-pixel-ratio".toList then bound.admits f.resolution value number?
  else bound == .exact && discreteHolds f base value

def Part.holds (f : Features) : Part → Bool
  | mediaType name => name == "all".toList || name == f.mediaType
  | feature name value => featureHolds f name value
  | invalid => false

def Query.holds (f : Features) (q : Query) : Bool := q.parts.all (Part.holds f) != q.negated

def QueryList.holds (f : Features) (queries : QueryList) : Bool := queries.any (Query.holds f)

/-- Whether a descriptor holds in a snapshot. -/
def Features.satisfy (f : Features) (descriptor : Text) : Bool :=
  (QueryList.ofText descriptor).holds f

example : ({} : Features).satisfy "print, not (max-width: 80rem) and screen".toList = false := by
  decide +kernel
example : ({} : Features).satisfy "ONLY Screen and (min-width:1280px)".toList := by decide +kernel

end MediaWatch.Media
