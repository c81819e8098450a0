import ScopeMachine.Instruction
import ScopeMachine.LoadError

/-!
# Decoding

Reads instructions back from bytes: the one at a given offset, all of a stream from its front up to
the first fault, or one after the other as a decoder is asked for them.
-/

namespace ScopeMachine.Instruction

def decodeAt (code : Array UInt8) (offset : Nat) : Except LoadError Instruction :=
  match code[offset]? with
  | none => .error (.truncatedOperand offset 1 0)
  | some byte =>
    match Opcode.ofByte? byte with
    | none => .error (.unknownOpcode byte offset)
    | some op =>
      if op.hasIndex then
        match code[offset + 1]?, code[offset + 2]? with
        | some low, some high =>
          .ok (ofOpcode op (UInt16.ofNat (Bytes.LittleEndian.decode [low, high])))
        | _, _ => .error (.truncatedOperand (offset + 1) 2 (code.size - (offset + 1)))
      else .ok (ofOpcode op 0)

structure Stream where
  /-- The instructions before the first fault, each with its offset. -/
  instructions : List (Nat × Instruction)
  /-- What stopped the reading before the end, if anything did. -/
  fault : Option LoadError
  deriving DecidableEq, Repr

/-- Reads on at `offset`, with the instructions before it in `done`, the last one first. -/
def decodeFrom (code : Array UInt8) (offset : Nat) (done : List (Nat × Instruction)) : Stream :=
  if offset < code.size then
    match decodeAt code offset with
    | .ok i => decodeFrom code (offset + i.width) ((offset, i) :: done)
    | .error e => ⟨done.reverse, some e⟩
  else ⟨done.reverse, none⟩
  termination_by code.size - offset
  decreasing_by
    have := i.width_pos
    omega

def decode (code : Array UInt8) : Stream :=
  decodeFrom code 0 []

/-- An instruction with its offset, or the fault that stands in its place. -/
abbrev Item := Except LoadError (Nat × Instruction)

structure Decoder where
  code : Array UInt8
  /-- Where the next instruction begins. -/
  offset : Nat
  /-- A fault was met; nothing is read behind it. -/
  failed : Bool

namespace Decoder

def ofCode (code : Array UInt8) : Decoder := ⟨code, 0, false⟩

def next (d : Decoder) : Option Item × Decoder :=
  if d.failed ∨ d.code.size ≤ d.offset then (none, d)
  else
    match decodeAt d.code d.offset with
    | .ok i => (some (.ok (d.offset, i)), { d with offset := d.offset + i.width })
    | .error e => (some (.error e), { d with failed := true })

end Decoder

end ScopeMachine.Instruction
