import ScopeMachine.Decimal.Shortest

/-!
# Binary64 numbers

Floating-point values are kept as their 64 bits, so that the payload of a NaN and the sign of a
zero survive storage. Comparison and text follow the number that the bits stand for.
-/

namespace ScopeMachine

/-- A double-precision number by its bits: sign, eleven bits of exponent, 52 bits of fraction. -/
structure Binary64 where
  bits : UInt64
  deriving DecidableEq, Repr, Inhabited

namespace Binary64

def isNegative (x : Binary64) : Bool :=
  x.bits.toNat / Nat.pow 2 63 = 1

def exponentField (x : Binary64) : Nat :=
  x.bits.toNat / Nat.pow 2 52 % Nat.pow 2 11

def fractionField (x : Binary64) : Nat :=
  x.bits.toNat % Nat.pow 2 52

def isNaN (x : Binary64) : Bool :=
  x.exponentField = 2047 && x.fractionField ≠ 0

def isZero (x : Binary64) : Bool :=
  x.exponentField = 0 && x.fractionField = 0

/-- Equality of numbers: a NaN equals nothing, and the two zeros are equal. -/
def numEq (x y : Binary64) : Bool :=
  !x.isNaN && !y.isNaN && (x == y || (x.isZero && y.isZero))

/-- The magnitude of a finite number. Below the smallest normal number the spacing no longer
halves, so only a power of two above it has its lower neighbour closer than its upper one. -/
def magnitude (x : Binary64) : Dyadic :=
  if x.exponentField = 0 then ⟨x.fractionField, -1074, false⟩
  else ⟨Nat.pow 2 52 + x.fractionField, (x.exponentField : Int) - 1075,
    x.fractionField = 0 && 1 < x.exponentField⟩

/-- The magnitude in the fewest digits that read back, without an exponent. -/
def magnitudeText (x : Binary64) : String :=
  if x.exponentField = 2047 then "inf"
  else if x.isZero then "0"
  else x.magnitude.shortest.positional

/-- The number as text; the sign of a NaN is not shown, that of a zero is. -/
def toText (x : Binary64) : String :=
  if x.isNaN then "NaN"
  else if x.isNegative then "-" ++ x.magnitudeText
  else x.magnitudeText

end Binary64

end ScopeMachine
