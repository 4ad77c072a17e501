import MediaWatch.Fault
import MediaWatch.Fields
import MediaWatch.Media.Length

/-! # Media features

A snapshot of the environment that media queries are evaluated in: the viewport, the pixel density,
the input devices, the medium, and any other feature by its exact value.
-/

namespace MediaWatch.Media

/-- How accurate the primary pointing device is. -/
inductive Pointer where
  | fine
  | coarse
  | none
deriving DecidableEq, Repr

namespace Pointer

def keyword : Pointer → Text
  | fine => "fine".toList
  | coarse => "coarse".toList
  | none => "none".toList

def ofKeyword? (t : Text) : Option Pointer := [fine, coarse, none].find? (·.keyword == t)

end Pointer

/-- A snapshot of the environment. -/
structure Features where
  /-- The width of the viewport in CSS pixels. -/
  width : Float := 1280.0
  /-- The height of the viewport in CSS pixels. -/
  height : Float := 800.0
  /-- The dots per CSS pixel. -/
  resolution : Float := 1.0
  /-- Whether the primary input can hover. -/
  hover : Bool := true
  /-- The accuracy of the primary pointing device. -/
  pointer : Pointer := .fine
  /-- The medium, such as `screen` or `print`. -/
  mediaType : Text := "screen".toList
  /-- Every other feature, compared by its exact value. -/
  extra : Fields Text := []

namespace Features

instance : Inhabited Features := ⟨{}⟩

/-- A viewport of the given size, with everything else as usual. -/
def ofSize (width height : Float) : Features := { width, height }

/-- Whether the viewport is at least as tall as it is wide. -/
def isPortrait (f : Features) : Bool := f.width ≤ f.height

def orientation (f : Features) : Text :=
  if f.isPortrait then "portrait".toList else "landscape".toList

/-- The features that a name can stand for. -/
inductive Key where
  | width
  | height
  | resolution
  | hover
  | pointer
  | mediaType
  | extra (name : Text)
deriving DecidableEq, Repr

/-- The feature that a name stands for, in any ASCII case and between blanks. -/
def Key.ofName (name : Text) : Key :=
  let name := Text.lowerAscii name.trim
  if name = "width".toList then width
  else if name = "height".toList then height
  else if name ∈ ["resolution".toList, "dpr".toList, "device-pixel-ratio".toList] then resolution
  else if name = "hover".toList then hover
  else if name = "pointer".toList then pointer
  else if name ∈ ["type".toList, "media-type".toList] then mediaType
  else extra name

/-- Whether hovering is possible, as a keyword. -/
def hover? (value : Text) : Option Bool :=
  if value ∈ ["hover".toList, "true".toList, "1".toList] then some true
  else if value ∈ ["none".toList, "false".toList, "0".toList] then some false
  else none

/-- The snapshot with one feature set from its text, if the feature can take it. -/
def set? (f : Features) (key : Key) (value : Text) : Option Features :=
  let value := value.trim
  let keyword := Text.lowerAscii value
  match key with
  | .width => (length? value).map fun width => { f with width }
  | .height => (length? value).map fun height => { f with height }
  | .resolution => (resolution? value).map fun resolution => { f with resolution }
  | .hover => (hover? keyword).map fun hover => { f with hover }
  | .pointer => (Pointer.ofKeyword? keyword).map fun pointer => { f with pointer }
  | .mediaType => some { f with mediaType := keyword }
  | .extra name => some { f with extra := f.extra.insert name keyword }

/-- The snapshot with a named feature set from its text. The fault names both as written. -/
def set (f : Features) (name value : Text) : Except Fault Features :=
  match f.set? (Key.ofName name) value with
  | some changed => .ok changed
  | none => .error (.featureValue name value)

end Features

end MediaWatch.Media
