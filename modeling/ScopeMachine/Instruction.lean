import ScopeMachine.Bytes.LittleEndian

/-!
# Instructions

An instruction is one opcode byte, followed for seven of the ten opcodes by an index into one of the
tables of its unit. Indices are 16 bits wide, which bounds the tables.
-/

namespace ScopeMachine

inductive Opcode where
  | constant
  | pop
  | multiname
  | dotRead
  | lexicalRead
  | lexicalWrite
  | lexicalAssign
  | pushFrame
  | popFrame
  | ret
  deriving DecidableEq, Repr, Inhabited

namespace Opcode

def toByte : Opcode → UInt8
  | constant => 0x01
  | pop => 0x02
  | multiname => 0x10
  | dotRead => 0x11
  | lexicalRead => 0x12
  | lexicalWrite => 0x13
  | lexicalAssign => 0x14
  | pushFrame => 0x20
  | popFrame => 0x21
  | ret => 0xFF

def ofByte? (b : UInt8) : Option Opcode :=
  if b = 0x01 then some constant
  else if b = 0x02 then some pop
  else if b = 0x10 then some multiname
  else if b = 0x11 then some dotRead
  else if b = 0x12 then some lexicalRead
  else if b = 0x13 then some lexicalWrite
  else if b = 0x14 then some lexicalAssign
  else if b = 0x20 then some pushFrame
  else if b = 0x21 then some popFrame
  else if b = 0xFF then some ret
  else none

def hasIndex : Opcode → Bool
  | pop | popFrame | ret => false
  | _ => true

def operandWidth (op : Opcode) : Nat :=
  if op.hasIndex then 2 else 0

def mnemonic : Opcode → String
  | constant => "constant"
  | pop => "pop"
  | multiname => "multiname"
  | dotRead => "dot_read"
  | lexicalRead => "lexical_read"
  | lexicalWrite => "lexical_write"
  | lexicalAssign => "lexical_assign"
  | pushFrame => "push_frame"
  | popFrame => "pop_frame"
  | ret => "return"

end Opcode

inductive Instruction where
  /-- Push a constant of the pool. -/
  | constant (index : UInt16)
  | pop
  /-- Push a reference to a multiname. -/
  | multiname (index : UInt16)
  /-- Replace the top operand by one of its properties. -/
  | dotRead (index : UInt16)
  /-- Push the value of a binding. -/
  | lexicalRead (index : UInt16)
  /-- Write the top operand to a binding, declaring it if there is none. -/
  | lexicalWrite (index : UInt16)
  /-- Write the top operand to a binding that exists. -/
  | lexicalAssign (index : UInt16)
  | pushFrame (index : UInt16)
  | popFrame
  /-- Stop and yield the top operand. -/
  | ret
  deriving DecidableEq, Repr, Inhabited

namespace Instruction

def opcode : Instruction → Opcode
  | constant _ => .constant
  | pop => .pop
  | multiname _ => .multiname
  | dotRead _ => .dotRead
  | lexicalRead _ => .lexicalRead
  | lexicalWrite _ => .lexicalWrite
  | lexicalAssign _ => .lexicalAssign
  | pushFrame _ => .pushFrame
  | popFrame => .popFrame
  | ret => .ret

def index? : Instruction → Option UInt16
  | constant i | multiname i | dotRead i | lexicalRead i | lexicalWrite i | lexicalAssign i
  | pushFrame i => some i
  | pop | popFrame | ret => none

/-- The instruction of an opcode; the index is dropped where none belongs. -/
def ofOpcode (op : Opcode) (index : UInt16) : Instruction :=
  match op with
  | .constant => constant index
  | .pop => pop
  | .multiname => multiname index
  | .dotRead => dotRead index
  | .lexicalRead => lexicalRead index
  | .lexicalWrite => lexicalWrite index
  | .lexicalAssign => lexicalAssign index
  | .pushFrame => pushFrame index
  | .popFrame => popFrame
  | .ret => ret

def width (i : Instruction) : Nat :=
  1 + i.opcode.operandWidth

theorem width_pos (i : Instruction) : 0 < i.width := by
  unfold width
  omega

def encode (i : Instruction) : List UInt8 :=
  i.opcode.toByte ::
    match i.index? with
    | none => []
    | some index => Bytes.LittleEndian.encode 2 index.toNat

def toText (i : Instruction) : String :=
  match i.index? with
  | none => i.opcode.mnemonic
  | some index => i.opcode.mnemonic ++ " " ++ toString index.toNat

def assemble (program : List Instruction) : List UInt8 :=
  program.flatMap encode

end Instruction

/-- Most entries of a table that 16-bit indices reach. -/
def tableLimit : Nat := 65536

end ScopeMachine
