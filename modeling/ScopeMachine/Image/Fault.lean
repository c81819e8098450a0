import ScopeMachine.Text.Utf8

/-!
# Faults of encoded images

What can be wrong with the bytes of an image. The bytes end within a field, a field of few values
holds another one, or a text is not UTF-8.
-/

namespace ScopeMachine.Image

inductive Fault where
  /-- The bytes end within a number, a truth value or a tag. -/
  | endOfBytes
  /-- The bytes end within a text. -/
  | endOfText
  /-- A text is not UTF-8. -/
  | notUtf8 (fault : Text.Utf8.Fault)
  /-- A truth value is neither 0 nor 1. -/
  | notBool (byte : UInt8)
  /-- The tag of an optional field is neither 0 nor 1. -/
  | notTag (byte : UInt8)
  /-- A constant is of no known kind. -/
  | notKind (kind : Nat)
  deriving DecidableEq, Repr

namespace Fault

/-- Whether more bytes could mend the fault. -/
def isShortage : Fault → Bool
  | endOfBytes | endOfText => true
  | _ => false

def message : Fault → String
  | endOfBytes => "io error: unexpected end of file"
  | endOfText => "io error: "
  | notUtf8 fault => "string is not valid utf8: " ++ fault.message
  | notBool byte => s!"invalid u8 while decoding bool, expected 0 or 1, found {byte.toNat}"
  | notTag byte => s!"tag for enum is not valid, found {byte.toNat}"
  | notKind kind => s!"invalid value: integer `{kind}`, expected variant index 0 <= i < 6"

end Fault

end ScopeMachine.Image
