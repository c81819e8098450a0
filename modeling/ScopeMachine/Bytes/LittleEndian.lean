/-!
# Little-endian numbers

A number of fixed width, least significant byte first.
-/

namespace ScopeMachine.Bytes.LittleEndian

/-- The `width` low bytes of `n`. -/
def encode : (width n : Nat) → List UInt8
  | 0, _ => []
  | width + 1, n => UInt8.ofNat n :: encode width (n / 256)

def decode : List UInt8 → Nat
  | [] => 0
  | b :: rest => b.toNat + 256 * decode rest

end ScopeMachine.Bytes.LittleEndian
