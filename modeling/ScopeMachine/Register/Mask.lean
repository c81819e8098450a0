import ScopeMachine.Text.Layout

/-!
# Register masks

A set of registers of one class as a word of 32 bits: bit `n` stands for the register of code `n`.
-/

namespace ScopeMachine

structure Mask where
  bits : UInt32
  deriving DecidableEq, Repr, Inhabited

namespace Mask

def capacity : Nat := 32

def empty : Mask := ⟨0⟩

def testBit (m : Mask) (n : Nat) : Bool := m.bits.toBitVec.getLsbD n

def contains (m : Mask) (code : UInt8) : Bool := m.testBit code.toNat

/-- The set of one code; a code that no mask can hold gives the empty set. -/
def of (code : UInt8) : Mask :=
  if code.toNat < capacity then ⟨1 <<< code.toUInt32⟩ else empty

def union (m n : Mask) : Mask := ⟨m.bits ||| n.bits⟩

def intersect (m n : Mask) : Mask := ⟨m.bits &&& n.bits⟩

def without (m n : Mask) : Mask := ⟨m.bits &&& ~~~n.bits⟩

def complement (m : Mask) : Mask := ⟨~~~m.bits⟩

def ofCodes (codes : List UInt8) : Mask :=
  codes.foldl (fun m code => m.union (of code)) empty

def low (count : Nat) : Mask :=
  -- a shift by the full width would wrap around to a shift by 0
  if capacity ≤ count then ⟨0xFFFFFFFF⟩ else ⟨1 <<< UInt32.ofNat count - 1⟩

def isSubset (m n : Mask) : Bool := m.bits &&& ~~~n.bits == 0

def isDisjoint (m n : Mask) : Bool := m.bits &&& n.bits == 0

def isEmpty (m : Mask) : Bool := m.bits == 0

def count (m : Mask) : Nat := (List.range capacity).countP m.testBit

def trailingZeros (m : Mask) : Nat := ((List.range capacity).find? m.testBit).getD capacity

def lowest? (m : Mask) : Option UInt8 :=
  if m.isEmpty then none else some (UInt8.ofNat m.trailingZeros)

def withoutLowest (m : Mask) : Mask := ⟨m.bits &&& (m.bits - 1)⟩

theorem withoutLowest_lt {m : Mask} (h : ¬m.bits = 0) :
    m.withoutLowest.bits.toNat < m.bits.toNat := by
  have positive : 0 < m.bits.toNat := by
    rcases Nat.eq_zero_or_pos m.bits.toNat with zero | pos
    · exact absurd (UInt32.toNat_inj.1 zero) h
    · exact pos
  have one_le : (1 : UInt32) ≤ m.bits := by
    rw [UInt32.le_iff_toNat_le]
    exact positive
  simp only [withoutLowest, UInt32.toNat_and, UInt32.toNat_sub_of_le _ _ one_le]
  exact Nat.lt_of_le_of_lt Nat.and_le_right (Nat.sub_lt positive Nat.one_pos)

def next? (m : Mask) : Option (UInt8 × Mask) :=
  m.lowest?.map (·, m.withoutLowest)

/-- How many members are still to come, at least and at most. -/
def sizeHint (m : Mask) : Nat × Option Nat := (m.count, some m.count)

def codes (m : Mask) : List UInt8 :=
  if _ : m.bits = 0 then []
  else UInt8.ofNat m.trailingZeros :: m.withoutLowest.codes
  termination_by m.bits.toNat
  decreasing_by exact withoutLowest_lt ‹_›

def toText (m : Mask) : String := "0x" ++ Text.hex 8 m.bits.toNat

def listing (m : Mask) : String :=
  "\x7b" ++ ", ".intercalate (m.codes.map fun c => toString c.toNat) ++ "\x7d"

end Mask

end ScopeMachine
