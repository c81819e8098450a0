/-!
# Shortest decimals

A value of a binary format stands for every real number that rounds to it. Among the decimals in
that interval this module finds one on the coarsest grid of powers of ten: the decimal of fewest
digits that reads back as the value, the nearest of them, and the larger one if two are equally
near.
-/

namespace ScopeMachine

/-- The number `coefficient · 10 ^ exponent`. -/
structure Decimal where
  coefficient : Nat
  exponent : Int
  deriving DecidableEq, Repr

/-- The positive value `mantissa · 2 ^ exponent` of a binary format. -/
structure Dyadic where
  mantissa : Nat
  exponent : Int
  /-- The next smaller value is half as far away as the next larger one. -/
  narrowBelow : Bool
  deriving DecidableEq, Repr

namespace Dyadic

/-- Distance from the value down to where rounding changes, in quarters of its last binary place. -/
def marginBelow (v : Dyadic) : Nat :=
  if v.narrowBelow then 1 else 2

/-- The multiple of `10 ^ place` that rounds to `v` and is nearest to it, if there is one. The ends
of the interval around `v` round to it only if its mantissa is even. -/
def onGrid? (v : Dyadic) (place : Int) : Option Nat :=
  -- value, ends and grid unit brought to whole numbers: one factor of each pair below is 1
  let scale := Nat.pow 2 (v.exponent - 2).toNat * Nat.pow 10 (-place).toNat
  let unit := Nat.pow 2 (2 - v.exponent).toNat * Nat.pow 10 place.toNat
  let value := 4 * v.mantissa * scale
  let low := (4 * v.mantissa - v.marginBelow) * scale
  let high := (4 * v.mantissa + 2) * scale
  let closed := v.mantissa % 2 = 0
  let below := value / unit
  let above := below + 1
  let belowRounds := low < below * unit ∨ (closed ∧ low = below * unit)
  let aboveRounds := above * unit < high ∨ (closed ∧ above * unit = high)
  if belowRounds then
    if aboveRounds ∧ (below + above) * unit ≤ 2 * value then some above else some below
  else if aboveRounds then some above
  else none

/-- The finest grid that needs a look: the value itself is on it. -/
def exactPlace (v : Dyadic) : Int :=
  min v.exponent 0

def exact (v : Dyadic) : Decimal :=
  ⟨v.mantissa * Nat.pow 2 v.exponent.toNat * Nat.pow 5 (-v.exponent).toNat, v.exactPlace⟩

/-- A grid so coarse that zero is its only multiple up to the value, and ten times the value is
still short of the next: the search starts here. -/
def coarsestPlace (v : Dyadic) : Int :=
  -- 30103 / 100000 is log₁₀ 2, close enough for every binary64 exponent
  (Nat.log2 v.mantissa + 1 + v.exponent) * 30103 / 100000 + 2

def shortestFrom (v : Dyadic) : Nat → Decimal
  | 0 => v.exact
  | steps + 1 =>
    let place := v.exactPlace + (steps + 1 : Nat)
    match v.onGrid? place with
    | some coefficient => ⟨coefficient, place⟩
    | none => v.shortestFrom steps

/-- The decimal of fewest digits that rounds to the value. -/
def shortest (v : Dyadic) : Decimal :=
  v.shortestFrom (v.coarsestPlace - v.exactPlace).toNat

end Dyadic

/-- All digits up to the unit, then, if there are more, a point and the rest: never an exponent. -/
def Decimal.positional (d : Decimal) : String :=
  let digits := Nat.toDigits 10 d.coefficient
  let places := (-d.exponent).toNat
  if places = 0 then
    String.ofList (digits ++ List.replicate d.exponent.toNat '0')
  else if places < digits.length then
    let whole := digits.length - places
    String.ofList (digits.take whole ++ '.' :: digits.drop whole)
  else
    String.ofList ('0' :: '.' :: List.replicate (places - digits.length) '0' ++ digits)

end ScopeMachine
