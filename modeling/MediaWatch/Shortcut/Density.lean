import MediaWatch.Decimal.Read
import MediaWatch.Decimal.Style
import MediaWatch.Shortcut.Basic

/-! # Densities

A number and an `x` stand for at least that many dots per pixel. Densities above one can be kept from
bots, so that they fetch no large images.
-/

namespace MediaWatch

/-- How densities are resolved. -/
structure Density where
  /-- Whether the agent is a bot. -/
  bot : Bool := false
  /-- Whether densities above one never hold for a bot. -/
  ignoreBots : Bool := false
deriving DecidableEq, Repr

namespace Density

/-- The number of a token that is made of digits and points, with at most a minus in front, and ends
in `x`. -/
def amount? (token : Text) : Option Float :=
  match Text.before? ['x'] token with
  | none => none
  | some amount =>
    let (_, digits) := match amount with
      | '-' :: rest => (true, rest)
      | rest => (false, rest)
    if !digits.isEmpty && digits.all fun c => c.isDigit || c = '.' then Decimal.read? amount
    else none

/-- What a lower-case token stands for, if it is a finite density that is not negative. -/
def resolve? (d : Density) (token : Text) : Option Shortcut :=
  match amount? token with
  | none => none
  | some amount =>
    if !amount.isFinite || amount < 0.0 then none
    else if amount > 1.0 && d.ignoreBots && d.bot then some (.constant false)
    else some (.descriptor
      ("(min-resolution: ".toList ++ Decimal.Style.plain.render amount ++ "dppx)".toList))

end Density

end MediaWatch
