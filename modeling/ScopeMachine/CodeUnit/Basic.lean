import ScopeMachine.CodeUnit.Multinames
import ScopeMachine.CodeUnit.Templates
import ScopeMachine.Instruction.Decode

/-!
# Code units

A code unit is compiled code with every table that it indexes. It is verified: its base template
exists, its code decodes to the end, and every index of an instruction is within its table.
-/

namespace ScopeMachine

/-- A constant of a unit's pool; a text is kept by its name. -/
inductive Constant where
  | undefined
  | null
  | bool (b : Bool)
  | int (n : Int64)
  | float (x : Binary64)
  | str (s : Name)
  deriving DecidableEq, Repr, Inhabited

/-- The parts of a code unit before they are verified. -/
structure Draft where
  interner : Interner
  multinames : MultinameTable
  templates : Arena
  constants : Array Constant
  /-- The template of the base frame. -/
  base : UInt16
  code : Array UInt8
  deriving Inhabited

namespace Draft

def constant (d : Draft) (index : UInt16) : Except LoadError Constant :=
  match d.constants[index.toNat]? with
  | some c => .ok c
  | none => .error (.constantOutOfRange index.toNat d.constants.size)

def errorOf? : Except LoadError α → Option LoadError
  | .ok _ => none
  | .error e => some e

def indexFault? (d : Draft) : Instruction → Option LoadError
  | .constant n => errorOf? (d.constant n)
  | .multiname n | .dotRead n | .lexicalRead n | .lexicalWrite n | .lexicalAssign n =>
    errorOf? (d.multinames.get n)
  | .pushFrame n => errorOf? (d.templates.get n)
  | .pop | .popFrame | .ret => none

/-- What is wrong with the code, from its front: the first index out of range before the first
fault of decoding, else that fault. -/
def codeFault? (d : Draft) : Option LoadError :=
  let stream := Instruction.decode d.code
  -- every decoded instruction stands before the fault, so its index is looked at first
  match stream.instructions.findSome? fun (_, i) => d.indexFault? i with
  | some e => some e
  | none => stream.fault

/-- The first thing that is wrong with the parts: the base template, the size of the pool, then the
code. -/
def fault? (d : Draft) : Option LoadError :=
  match errorOf? (d.templates.get d.base) with
  | some e => some e
  | none =>
    if tableLimit < d.constants.size then some (.tableTooLarge d.constants.size)
    else d.codeFault?

end Draft

structure CodeUnit extends Draft where
  verified : toDraft.fault? = none

namespace CodeUnit

def ofDraft (d : Draft) : Except LoadError CodeUnit :=
  match h : d.fault? with
  | none => .ok ⟨d, h⟩
  | some e => .error e

end CodeUnit

end ScopeMachine
