import Mathlib.Algebra.Group.Nat.Defs
import ScopeMachine.Register.Mask

/-!
# Masks as sets

A mask is known by the codes it contains (`eq_iff`): each operation on words is said by what it does
to membership. Codes from 32 on are in no mask, and a mask counts its members among all codes.
-/

namespace ScopeMachine.Mask

variable {m n : Mask} {c : UInt8}

/-! ## Bits -/

theorem testBit_of_le (h : 32 ≤ k) : m.testBit k = false :=
  BitVec.getLsbD_of_ge _ k h

theorem testBit_eq (m : Mask) (k : Nat) : m.testBit k = m.bits.toNat.testBit k := rfl

theorem toNat_low (h : total < 32) : (low total).bits.toNat = 2 ^ total - 1 := by
  have hword : (UInt32.ofNat total).toNat = total :=
    UInt32.toNat_ofNat_of_lt' (Nat.lt_trans h (by decide))
  have hpow : 2 ^ total < 2 ^ 32 := Nat.pow_lt_pow_right (by decide) h
  have hshift : ((1 : UInt32) <<< UInt32.ofNat total).toNat = 2 ^ total := by
    rw [UInt32.toNat_shiftLeft, hword, Nat.mod_eq_of_lt h, UInt32.toNat_one, Nat.one_shiftLeft,
      Nat.mod_eq_of_lt hpow]
  have hone : (1 : UInt32) ≤ 1 <<< UInt32.ofNat total := by
    rw [UInt32.le_iff_toNat_le, hshift]
    exact Nat.one_le_two_pow
  simp [low, capacity, Nat.not_le.mpr h, UInt32.toNat_sub_of_le _ _ hone, hshift]

/-! ## Members -/

@[simp] theorem contains_of_le (h : 32 ≤ c.toNat) : m.contains c = false :=
  testBit_of_le h

theorem contains_ofNat (h : k < 256) : m.contains (UInt8.ofNat k) = m.testBit k := by
  rw [contains, UInt8.toNat_ofNat_of_lt' h]

@[simp] theorem contains_empty (c : UInt8) : empty.contains c = false := by
  simp [contains, testBit, empty]

@[simp] theorem contains_union (m n : Mask) (c : UInt8) :
    (m.union n).contains c = (m.contains c || n.contains c) := by
  simp [contains, testBit, union]

@[simp] theorem contains_intersect (m n : Mask) (c : UInt8) :
    (m.intersect n).contains c = (m.contains c && n.contains c) := by
  simp [contains, testBit, intersect]

@[simp] theorem contains_without (m n : Mask) (c : UInt8) :
    (m.without n).contains c = (m.contains c && !n.contains c) := by
  by_cases hc : c.toNat < 32
  · simp [contains, testBit, without, hc]
  · simp [contains_of_le (Nat.le_of_not_lt hc)]

theorem contains_low (h : total ≤ 32) (c : UInt8) :
    (low total).contains c = decide (c.toNat < total) := by
  rcases Nat.lt_or_eq_of_le h with hlt | rfl
  · rw [contains, testBit_eq, toNat_low hlt, Nat.testBit_two_pow_sub_one]
  · have hall : (low 32).bits.toNat = 2 ^ 32 - 1 := rfl
    rw [contains, testBit_eq, hall, Nat.testBit_two_pow_sub_one]

/-! ## Comparisons -/

theorem eq_iff : m = n ↔ ∀ c, m.contains c = n.contains c := by
  constructor
  · rintro rfl c
    rfl
  · intro h
    obtain ⟨⟨x⟩⟩ := m
    obtain ⟨⟨y⟩⟩ := n
    have hxy : x = y := by
      refine BitVec.eq_of_getLsbD_eq fun k hk => ?_
      have hbit := h (UInt8.ofNat k)
      rwa [contains_ofNat (by omega), contains_ofNat (by omega)] at hbit
    rw [hxy]

theorem isEmpty_iff : m.isEmpty = true ↔ ∀ c, m.contains c = false := by
  have hempty : m.isEmpty = true ↔ m = empty := by
    obtain ⟨bits⟩ := m
    simp [isEmpty, empty]
  rw [hempty, eq_iff]
  simp

theorem isSubset_iff : m.isSubset n = true ↔ ∀ c, m.contains c = true → n.contains c = true := by
  have hwithout : m.isSubset n = (m.without n).isEmpty := rfl
  rw [hwithout, isEmpty_iff]
  simp

/-! ## Counting -/

/-- The members counted are those among all codes, also the codes that no mask can hold. -/
theorem countP_contains (m : Mask) :
    (List.range 256).countP (fun k => m.contains (UInt8.ofNat k)) = m.count := by
  have hrange : List.range (32 + 224) = List.range 32 ++ (List.range 224).map (32 + ·) :=
    List.range_add
  have hlow : (List.range 32).countP (fun k => m.contains (UInt8.ofNat k)) = m.count := by
    refine List.countP_congr fun k hk => ?_
    rw [contains_ofNat (by grind)]
  have hhigh : ((List.range 224).map (32 + ·)).countP (fun k => m.contains (UInt8.ofNat k)) = 0 := by
    simp only [List.countP_eq_zero, List.mem_map, List.mem_range]
    rintro _ ⟨k, hk, rfl⟩
    rw [contains_ofNat (by omega), testBit_of_le (by omega)]
    decide
  rw [show 256 = 32 + 224 from rfl, hrange, List.countP_append, hlow, hhigh, Nat.add_zero]

end ScopeMachine.Mask
