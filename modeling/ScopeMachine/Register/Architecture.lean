import ScopeMachine.Register.Set

/-!
# Architectures

The register model of a target under one calling convention: both classes of registers, the stack
pointer, and the layout of native stack frames.
-/

namespace ScopeMachine

structure FrameLayout where
  /-- Bytes of a spill slot. -/
  stackSlotSize : Nat
  maxStackSlots : Nat
  /-- Slots that a spilled double is aligned to. -/
  doubleStackAlignment : Nat
  /-- Bytes kept free below a frame for a call. -/
  frameSlackSize : Nat
  /-- Bytes that a caller reserves for the callee to spill register arguments. -/
  shadowStackSpace : Nat
  /-- Stands for no slot. -/
  invalidStackSlot : Int
  deriving DecidableEq, Repr, Inhabited

structure Architecture where
  name : String
  general : RegisterSet
  float : RegisterSet
  /-- The code of the stack pointer among the general registers. -/
  stackPointer : UInt8
  frame : FrameLayout
  deriving DecidableEq, Repr, Inhabited

def isPowerOfTwo (n : Nat) : Bool := n ≠ 0 && n &&& (n - 1) == 0

namespace Architecture

def registers (a : Architecture) : RegisterClass → RegisterSet
  | .general => a.general
  | .float => a.float

/-- The first fault: of the general registers, of the float registers, of the stack pointer, of the
slot size. -/
def fault? (a : Architecture) : Option RegisterError :=
  match a.general.fault? with
  | some e => some e
  | none =>
    match a.float.fault? with
    | some e => some e
    | none =>
      if !a.general.reserved.contains a.stackPointer then
        some (.stackPointerNotReserved a.stackPointer)
      else if !isPowerOfTwo a.frame.stackSlotSize then some (.badStackSlotSize a.frame.stackSlotSize)
      else none

end Architecture

end ScopeMachine
