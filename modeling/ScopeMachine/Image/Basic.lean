import ScopeMachine.Binary64
import ScopeMachine.Multiname

/-!
# Images of code units

An image is a code unit as a compiler hands it over: texts in place of names, and nothing checked.
-/

namespace ScopeMachine.Image

structure Reference where
  name : String
  namespaces : List String
  deriving DecidableEq, Repr, Inhabited

structure Slot where
  name : String
  qualifier : Option String
  hoisted : Bool
  immutable : Bool
  deriving DecidableEq, Repr, Inhabited

structure Frame where
  parent : Option UInt16
  slots : List Slot
  deriving DecidableEq, Repr, Inhabited

inductive Constant where
  | undefined
  | null
  | bool (b : Bool)
  | int (n : Int64)
  | float (x : Binary64)
  | str (s : String)
  deriving DecidableEq, Repr, Inhabited

end ScopeMachine.Image

namespace ScopeMachine

/-- A code unit with its texts, before it is loaded. -/
structure Image where
  multinames : List Image.Reference
  frames : List Image.Frame
  constants : List Image.Constant
  base : UInt16
  code : List UInt8
  deriving DecidableEq, Repr, Inhabited

end ScopeMachine
