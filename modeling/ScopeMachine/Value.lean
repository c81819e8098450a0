import ScopeMachine.CodeUnit.Basic
import ScopeMachine.Text.Quoted

/-!
# Values

What operands and bindings hold: scalars, texts, references to multinames and handles of objects
that belong to the host.
-/

namespace ScopeMachine

inductive Value where
  /-- Stands for a declared binding that has not been written yet. -/
  | uninitialized
  | undefined
  | null
  | bool (b : Bool)
  | int (n : Int64)
  | float (x : Binary64)
  | str (s : String)
  /-- An entry of the unit's table of multinames. -/
  | multiname (index : UInt16)
  /-- An object of the host. -/
  | object (handle : UInt32)
  deriving DecidableEq, Repr, Inhabited

namespace Value

def isUninitialized (v : Value) : Bool := v == uninitialized

def ofConstant (i : Interner) : Constant → Value
  | .undefined => undefined
  | .null => null
  | .bool b => bool b
  | .int n => int n
  | .float x => float x
  | .str s => str (i.text s)

def ofWritten : Image.Constant → Value
  | .undefined => undefined
  | .null => null
  | .bool b => bool b
  | .int n => int n
  | .float x => float x
  | .str s => str s

/-- Equality of values: of one kind and with equal contents, where floats are compared as
numbers. -/
def valueEq : Value → Value → Bool
  | float x, float y => x.numEq y
  | v, w => v == w

def typeName : Value → String
  | uninitialized => "uninitialized"
  | undefined => "undefined"
  | null => "null"
  | bool _ => "bool"
  | int _ => "int"
  | float _ => "float"
  | str _ => "str"
  | multiname _ => "multiname"
  | object _ => "object"

def toText : Value → String
  | uninitialized => "<uninitialized>"
  | undefined => "undefined"
  | null => "null"
  | bool b => if b then "true" else "false"
  | int n => toString n.toInt
  | float x => x.toText
  | str s => Text.Quoted.encode s
  | multiname index => s!"mn#{index.toNat}"
  | object handle => s!"<object {handle.toNat}>"

end Value

end ScopeMachine
