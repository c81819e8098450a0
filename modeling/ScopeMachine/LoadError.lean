import ScopeMachine.Image.Fault
import ScopeMachine.Multiname
import ScopeMachine.Text.Layout

/-!
# Errors of loading

All but one say in what way a code unit is not consistent with itself; the other is that no name is
left for one of its texts. A `Loader` interns texts as it goes along, and stops at the first error.
-/

namespace ScopeMachine

inductive LoadError where
  | multinameOutOfRange (index size : Nat)
  | frameOutOfRange (index size : Nat)
  | constantOutOfRange (index size : Nat)
  | unknownOpcode (opcode : UInt8) (offset : Nat)
  | truncatedOperand (offset needed available : Nat)
  | parentNotDeclared (child parent : Nat)
  | duplicateSlot (frame : Nat) (name : QualifiedName)
  | tableTooLarge (size : Nat)
  | intern (cause : InternError)
  | image (fault : Image.Fault)
  deriving DecidableEq, Repr

def LoadError.message (i : Interner) : LoadError → String
  | multinameOutOfRange index size => s!"multiname index {index} out of range (table has {size})"
  | frameOutOfRange index size => s!"frame template index {index} out of range (arena has {size})"
  | constantOutOfRange index size => s!"constant index {index} out of range (pool has {size})"
  | unknownOpcode opcode offset =>
    s!"unknown opcode 0x{Text.hex 2 opcode.toNat} at offset {offset}"
  | truncatedOperand offset needed available =>
    s!"truncated operand at offset {offset}: need {needed} bytes, {available} available"
  | parentNotDeclared child parent =>
    s!"frame template {child} names parent {parent}, which is not an earlier template"
  | duplicateSlot frame name =>
    s!"frame template {frame} declares slot `{name.toText i}` more than once"
  | tableTooLarge size => s!"table exceeds 16-bit operand width ({size} entries)"
  | intern cause => cause.message
  | image fault => "cannot decode code-unit image: " ++ fault.message

/-- What is interned up to an error stays interned. -/
abbrev Loader := ExceptT LoadError (StateM Interner)

namespace Loader

def run (l : Loader α) (i : Interner) : Except LoadError α × Interner :=
  StateT.run (ExceptT.run l) i

def intern (s : String) : Loader Name := do
  match ← modifyGet fun i : Interner => i.tryIntern s with
  | .ok name => return name
  | .error cause => throw (.intern cause)

end Loader

end ScopeMachine
