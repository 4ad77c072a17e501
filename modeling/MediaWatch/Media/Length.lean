import MediaWatch.Decimal.Read
import MediaWatch.Text.Blank

/-! # Lengths and resolutions

The values that sized media features take. A length is in CSS pixels, a resolution in dots per
pixel. Units may be in any case and may stand apart from the number; a number without a unit is in
the base unit. Only finite numbers count.
-/

namespace MediaWatch.Media

/-- A finite number between blanks. -/
def number? (t : Text) : Option Float :=
  (Decimal.read? t.trim).filter Float.isFinite

/-- The pixels of one `em` in the viewport. -/
def emPixels : Float := 16.0

/-- The dots per inch of one dot per pixel. -/
def dotsPerInch : Float := 96.0

def inchCentimetres : Float := 2.54

/-- The number in front of the first unit that ends the text, converted from that unit. -/
def withUnit? (units : List (Text × (Float → Float))) (t : Text) : Option Float :=
  match units with
  | [] => number? t
  | (unit, convert) :: others =>
    match Text.before? unit t with
    | some amount => (number? amount).map convert
    | none => withUnit? others t

/-- A length in pixels. -/
def length? (t : Text) : Option Float :=
  withUnit?
    [("px".toList, id), ("rem".toList, (· * emPixels)), ("em".toList, (· * emPixels))]
    (Text.lowerAscii t.trim)

/-- A resolution in dots per pixel. -/
def resolution? (t : Text) : Option Float :=
  withUnit?
    [("dppx".toList, id), ("dpi".toList, (· / dotsPerInch)),
     ("dpcm".toList, (· * inchCentimetres / dotsPerInch)), ("x".toList, id)]
    (Text.lowerAscii t.trim)

end MediaWatch.Media
