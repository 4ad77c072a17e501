import MediaWatch.Decimal.Shortest

/-! # Laying out a number

A style says where positional notation ends, whether a whole number keeps a point, and which of two
equally near decimals is written. The digits themselves are always the fewest that read back.
-/

namespace MediaWatch.Decimal

/-- The decisions of one number format. -/
structure Style where
  /-- The places before the point that are written positionally, both ends included; without
  bounds every number is. -/
  positional : Option (Int × Int)
  /-- Whether a whole number ends in `.0`. -/
  pointed : Bool
  /-- Whether an exponent that is not negative has a plus sign. -/
  signed : Bool
  tie : Tie

/-- Plain numbers never use an exponent, and whole ones have no point. -/
def Style.plain : Style := ⟨none, false, false, .up⟩

/-- Numbers inside data keep a point, and use an exponent, always with a sign, from `10 ^ 16` on and
below `10 ^ -5`. -/
def Style.data : Style := ⟨some (-4, 16), true, true, .even⟩

/-- Numbers shown for inspection use an exponent from `10 ^ 16` on and below `10 ^ -4`. -/
def Style.inspected : Style := ⟨some (-3, 16), true, false, .up⟩

/-- Whether a number with that many places before the point is written without an exponent. -/
def Style.isPositional (style : Style) (point : Int) : Bool :=
  match style.positional with
  | none => true
  | some (least, most) => least ≤ point && point ≤ most

/-- The text of a decimal whose point falls before, inside or after its digits. -/
def Style.positionalText (style : Style) (d : Digits) : Text :=
  if d.point ≤ 0 then "0.".toList ++ List.replicate d.point.natAbs '0' ++ d.digits
  else
    let before := d.digits.take d.point.toNat
    match d.digits.drop d.point.toNat with
    | [] =>
      before ++ List.replicate (d.point.toNat - before.length) '0' ++
        if style.pointed then ".0".toList else []
    | after => before ++ '.' :: after

def Style.exponentText (style : Style) (exponent : Int) : Text :=
  if style.signed && 0 ≤ exponent then '+' :: Text.ofInt exponent else Text.ofInt exponent

/-- The text of a decimal with one digit before its point and an exponent. -/
def Style.scientificText (style : Style) (d : Digits) : Text :=
  d.digits.take 1 ++ (match d.digits.drop 1 with | [] => [] | after => '.' :: after) ++
    'e' :: style.exponentText (d.point - 1)

def Style.magnitude (style : Style) (x : Float) : Text :=
  if x.isInf then "inf".toList
  else if x == 0.0 then if style.pointed then "0.0".toList else "0".toList
  else
    let d := shortest x style.tie
    if style.isPositional d.point then style.positionalText d else style.scientificText d

def Style.render (style : Style) (x : Float) : Text :=
  if x.isNaN then "NaN".toList
  else if x.toBits >>> 63 = 1 then '-' :: style.magnitude x else style.magnitude x

example : Style.plain.render 1e21 = "1000000000000000000000".toList := by decide +kernel
example : Style.plain.render (-0.0) = "-0".toList := by decide +kernel
example : Style.data.render 100.0 = "100.0".toList ∧ Style.data.render 1e16 = "1e+16".toList := by
  decide +kernel
example : Style.data.render 1.5e-7 = "1.5e-7".toList ∧ Style.data.render 0.00001 = "0.00001".toList := by
  decide +kernel
example : Style.inspected.render 0.0001 = "0.0001".toList ∧ Style.inspected.render 0.00009 = "9e-5".toList := by
  decide +kernel

end MediaWatch.Decimal
