import Mathlib.Algebra.Group.Nat.Defs
import ScopeMachine.Bytes.LittleEndian

/-!
# Numbers and their bytes

`encode width` and `decode` are inverse to each other between the numbers below `256 ^ width` and
the lists of `width` bytes.
-/

namespace ScopeMachine.Bytes.LittleEndian

@[simp] theorem length_encode (width n : Nat) : (encode width n).length = width := by
  induction width generalizing n with
  | zero => rfl
  | succ width ih => simp [encode, ih]

theorem decode_lt (bytes : List UInt8) : decode bytes < 256 ^ bytes.length := by
  induction bytes with
  | nil => simp [decode]
  | cons b rest ih =>
    have := b.toNat_lt
    rw [decode, List.length_cons, Nat.pow_succ]
    omega

theorem decode_encode (h : n < 256 ^ width) : decode (encode width n) = n := by
  induction width generalizing n with
  | zero =>
    simp at h
    simp [encode, decode, h]
  | succ width ih =>
    rw [Nat.pow_succ] at h
    rw [encode, decode, ih (by omega), UInt8.toNat_ofNat']
    omega

theorem encode_decode (bytes : List UInt8) : encode bytes.length (decode bytes) = bytes := by
  induction bytes with
  | nil => rfl
  | cons b rest ih =>
    have := b.toNat_lt
    have hquotient : (b.toNat + 256 * decode rest) / 256 = decode rest := by omega
    have hlow : UInt8.ofNat (b.toNat + 256 * decode rest) = b := by
      rw [← UInt8.toNat_inj, UInt8.toNat_ofNat']
      omega
    rw [List.length_cons, decode, encode, hquotient, hlow, ih]

theorem decode_encode_two (n : UInt16) : decode (encode 2 n.toNat) = n.toNat :=
  decode_encode n.toNat_lt

end ScopeMachine.Bytes.LittleEndian
