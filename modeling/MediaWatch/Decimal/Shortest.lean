import MediaWatch.Text.Basic

/-! # The fewest digits

The decimal with the fewest digits among those that read back as a given binary64 number, and of
these the nearest. All arithmetic is exact, on natural numbers.
-/

namespace MediaWatch.Decimal

/-- Which of two equally near decimals is taken. -/
inductive Tie where
  | up
  | even
deriving DecidableEq, Repr

/-- The reals that round to one positive binary value. The ends and the value itself are counted in
units of `num / den`, a quarter of the value's last place. -/
structure Interval where
  low : Nat
  value : Nat
  high : Nat
  closed : Bool
  num : Nat
  den : Nat

/-- The interval of the finite, non-zero value with these bits, its sign aside. Above a power of two
the gap is twice the gap below. The ends round to the value exactly when its last bit is zero. -/
def Interval.ofBits (bits : UInt64) : Interval :=
  let field := ((bits >>> 52) &&& 0x7ff).toNat
  let fraction := (bits &&& 0xfffffffffffff).toNat
  let mantissa := if field = 0 then fraction else fraction + Nat.pow 2 52
  let place : Int := (max field 1 : Nat) - 1075
  { low := 4 * mantissa - if fraction = 0 ∧ 1 < field then 1 else 2
    value := 4 * mantissa
    high := 4 * mantissa + 2
    closed := mantissa % 2 = 0
    num := Nat.pow 2 (place - 2).toNat
    den := Nat.pow 2 (2 - place).toNat }

/-- The same interval counted in units of `10 ^ g`. -/
def Interval.onGrid (i : Interval) (g : Int) : Interval :=
  { i with num := i.num * Nat.pow 10 (-g).toNat, den := i.den * Nat.pow 10 g.toNat }

def Interval.holds (i : Interval) (units : Nat) : Bool :=
  if i.closed then i.low * i.num ≤ units * i.den && units * i.den ≤ i.high * i.num
  else i.low * i.num < units * i.den && units * i.den < i.high * i.num

/-- The whole number of units nearest to the value, of the two that enclose it, if it lies in the
interval. -/
def Interval.nearest? (i : Interval) (tie : Tie) : Option Nat :=
  let below := i.value * i.num / i.den
  match i.holds below, i.holds (below + 1) with
  | false, false => none
  | true, false => some below
  | false, true => some (below + 1)
  | true, true =>
    match compare (2 * (i.value * i.num)) ((2 * below + 1) * i.den) with
    | .lt => some below
    | .gt => some (below + 1)
    | .eq => some (if tie = .even ∧ below % 2 = 0 then below else below + 1)

/-- How many digits the value has before its point; for a value below one, minus the zeros that
follow the point. -/
def Interval.places (i : Interval) : Int :=
  let whole := i.value * i.num / i.den
  if whole = 0 then 1 - (Text.ofNat (i.den / (i.value * i.num))).length
  else (Text.ofNat whole).length

/-- A decimal `0.d₁d₂… * 10 ^ point`. -/
structure Digits where
  digits : Text
  point : Int
deriving DecidableEq, Repr

/-- The digits of `units * 10 ^ g` without zeros at the end. -/
def Digits.ofUnits (units : Nat) (g : Int) : Digits :=
  let all := Text.ofNat units
  { digits := (all.reverse.dropWhile (· == '0')).reverse, point := all.length + g }

/-- The decimal with the fewest digits, at most 17, that lies in the interval; if there were none,
the value itself, which is a whole number of units of some power of ten. -/
def Interval.shortest (i : Interval) (tie : Tie) : Digits :=
  let hit := (List.range 17).findSome? fun (n : Nat) =>
    let g : Int := i.places - (n + 1 : Nat)
    ((i.onGrid g).nearest? tie).map (Digits.ofUnits · g)
  hit.getD (Digits.ofUnits (i.value * i.num * Nat.pow 5 i.den.log2) (-(i.den.log2 : Int)))

/-- The fewest digits of a finite, non-zero number, its sign aside. -/
def shortest (x : Float) (tie : Tie) : Digits := (Interval.ofBits x.toBits).shortest tie

example : shortest 1e23 .even = ⟨"1".toList, 24⟩ := by decide +kernel
example : shortest 2.98023223876953125e-8 .up = ⟨"29802322387695313".toList, -7⟩ := by decide +kernel
example : shortest 2.98023223876953125e-8 .even = ⟨"29802322387695312".toList, -7⟩ := by
  decide +kernel

end MediaWatch.Decimal
