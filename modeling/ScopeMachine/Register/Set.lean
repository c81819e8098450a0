import ScopeMachine.Register.Mask

/-!
# Register sets

The registers of one class of an architecture: their names by code, and for each role the mask of
the registers that play it. A set is consistent if its masks agree with its names and with each
other; the first thing that is not so is its fault.
-/

namespace ScopeMachine

inductive RegisterClass where
  | general
  | float
  deriving DecidableEq, Repr, Inhabited

def RegisterClass.label : RegisterClass → String
  | general => "general"
  | float => "float"

/-- Who saves a register across a call. -/
inductive Volatility where
  /-- The caller. -/
  | volatile
  /-- The callee. -/
  | nonVolatile
  /-- Neither, as with a stack pointer. -/
  | unclassified
  deriving DecidableEq, Repr, Inhabited

def Volatility.label : Volatility → String
  | volatile => "Volatile"
  | nonVolatile => "NonVolatile"
  | unclassified => "Unclassified"

/-- The roles of registers, in the order in which a set is checked. -/
inductive Role where
  | all
  | volatile
  | nonVolatile
  /-- Never handed out by an allocator. -/
  | reserved
  | allocatable
  | argument
  /-- Holds results of calls into host code. -/
  | callReturn
  /-- Holds results of calls between compiled functions. -/
  | scriptReturn
  /-- A wrapper of host calls may overwrite it. -/
  | wrapper
  /-- May be used without saving it. -/
  | temp
  /-- Has an addressable low byte. -/
  | singleByte
  deriving DecidableEq, Repr, Inhabited

namespace Role

def list : List Role :=
  [all, volatile, nonVolatile, reserved, allocatable, argument, callReturn, scriptReturn, wrapper,
    temp, singleByte]

def label : Role → String
  | all => "all"
  | volatile => "volatile"
  | nonVolatile => "non-volatile"
  | reserved => "reserved"
  | allocatable => "allocatable"
  | argument => "argument"
  | callReturn => "call-return"
  | scriptReturn => "js-call-return"
  | wrapper => "wrapper"
  | temp => "temp"
  | singleByte => "single-byte"

end Role

inductive RegisterError where
  | codeOutOfRange (kind : RegisterClass) (code : UInt8) (total : Nat)
  | tooManyRegisters (kind : RegisterClass) (total : Nat)
  | emptyName (kind : RegisterClass) (code : UInt8)
  | duplicateName (kind : RegisterClass) (code : UInt8)
  | outsideClass (kind : RegisterClass) (role : Role) (mask : Mask)
  | overlappingSaveRoles (kind : RegisterClass) (overlap : Mask)
  | allocatableMismatch (kind : RegisterClass) (expected actual : Mask)
  | allocatableCountMismatch (kind : RegisterClass) (declared actual : Nat)
  | unclassifiedAllocatable (kind : RegisterClass) (mask : Mask)
  | tempMismatch (kind : RegisterClass) (expected actual : Mask)
  | stackPointerNotReserved (code : UInt8)
  | badStackSlotSize (size : Nat)
  deriving DecidableEq, Repr

def RegisterError.message : RegisterError → String
  | codeOutOfRange kind code total =>
    s!"{kind.label} register code {code.toNat} out of range (class has {total})"
  | tooManyRegisters kind total =>
    s!"{kind.label} class has {total} registers; masks hold at most 32"
  | emptyName kind code => s!"{kind.label} register {code.toNat} has an empty name"
  | duplicateName kind code =>
    s!"{kind.label} register {code.toNat} reuses the name of an earlier register"
  | outsideClass kind role mask =>
    s!"{kind.label} {role.label} mask {mask.toText} names registers outside the class"
  | overlappingSaveRoles kind overlap =>
    s!"{kind.label} registers {overlap.toText} are both volatile and non-volatile"
  | allocatableMismatch kind expected actual =>
    s!"{kind.label} allocatable mask is {actual.toText}, expected all registers minus reserved ({expected.toText})"
  | allocatableCountMismatch kind declared actual =>
    s!"{kind.label} class declares {declared} allocatable registers but its mask holds {actual}"
  | unclassifiedAllocatable kind mask =>
    s!"{kind.label} allocatable registers {mask.toText} are neither volatile nor non-volatile"
  | tempMismatch kind expected actual =>
    s!"{kind.label} temp mask is {actual.toText}, expected volatile minus reserved ({expected.toText})"
  | stackPointerNotReserved code =>
    s!"stack pointer (code {code.toNat}) must be a reserved general register"
  | badStackSlotSize size => s!"stack slot size {size} is not a power of two"

structure RegisterSet where
  kind : RegisterClass
  /-- Names by code. -/
  names : List String
  allocatableCount : Nat
  all : Mask
  volatile : Mask
  nonVolatile : Mask
  reserved : Mask
  allocatable : Mask
  argument : Mask
  callReturn : Mask
  scriptReturn : Mask
  wrapper : Mask
  temp : Mask
  singleByte : Mask
  deriving DecidableEq, Repr, Inhabited

namespace RegisterSet

def mask (s : RegisterSet) : Role → Mask
  | .all => s.all
  | .volatile => s.volatile
  | .nonVolatile => s.nonVolatile
  | .reserved => s.reserved
  | .allocatable => s.allocatable
  | .argument => s.argument
  | .callReturn => s.callReturn
  | .scriptReturn => s.scriptReturn
  | .wrapper => s.wrapper
  | .temp => s.temp
  | .singleByte => s.singleByte

def withMask (s : RegisterSet) (role : Role) (m : Mask) : RegisterSet :=
  match role with
  | .all => { s with all := m }
  | .volatile => { s with volatile := m }
  | .nonVolatile => { s with nonVolatile := m }
  | .reserved => { s with reserved := m }
  | .allocatable => { s with allocatable := m }
  | .argument => { s with argument := m }
  | .callReturn => { s with callReturn := m }
  | .scriptReturn => { s with scriptReturn := m }
  | .wrapper => { s with wrapper := m }
  | .temp => { s with temp := m }
  | .singleByte => { s with singleByte := m }

def total (s : RegisterSet) : Nat := s.names.length

def name (s : RegisterSet) (code : UInt8) : Except RegisterError String :=
  match s.names[code.toNat]? with
  | some n => .ok n
  | none => .error (.codeOutOfRange s.kind code s.total)

def codeOf? (s : RegisterSet) (name : String) : Option UInt8 :=
  ((s.names.idxOf? name).filter (· < 256)).map UInt8.ofNat

def registers (s : RegisterSet) : List (UInt8 × String) :=
  (s.names.take 256).zipIdx.map fun (n, code) => (UInt8.ofNat code, n)

def classify (s : RegisterSet) (code : UInt8) : Volatility :=
  if s.volatile.contains code then .volatile
  else if s.nonVolatile.contains code then .nonVolatile
  else .unclassified

def isAllocatable (s : RegisterSet) (code : UInt8) : Bool :=
  s.allocatable.contains code

/-- The fault of the names from `code` on, after the names `earlier`: the first name that is empty
or was there before. -/
def nameFault? (s : RegisterSet) (code : Nat) (earlier : List String) :
    List String → Option RegisterError
  | [] => none
  | n :: rest =>
    if n = "" then some (.emptyName s.kind (UInt8.ofNat code))
    else if n ∈ earlier then some (.duplicateName s.kind (UInt8.ofNat code))
    else s.nameFault? (code + 1) (n :: earlier) rest

def strayRole? (s : RegisterSet) : Option Role :=
  Role.list.find? fun role => !(s.mask role).isSubset (.low s.total)

def maskFault? (s : RegisterSet) : Option RegisterError :=
  let overlap := s.volatile.intersect s.nonVolatile
  let allocatable := s.all.without s.reserved
  let unclassified := s.allocatable.without (s.volatile.union s.nonVolatile)
  let temp := s.volatile.without s.reserved
  -- no mask reaches beyond the class by now, so the mask of all registers is at most too small
  if s.all ≠ .low s.total then some (.outsideClass s.kind .all s.all)
  else if !overlap.isEmpty then some (.overlappingSaveRoles s.kind overlap)
  else if s.allocatable ≠ allocatable then
    some (.allocatableMismatch s.kind allocatable s.allocatable)
  else if s.allocatable.count ≠ s.allocatableCount then
    some (.allocatableCountMismatch s.kind s.allocatableCount s.allocatable.count)
  else if !unclassified.isEmpty then some (.unclassifiedAllocatable s.kind unclassified)
  else if s.temp ≠ temp then some (.tempMismatch s.kind temp s.temp)
  else none

/-- The first fault: too many registers, then the names, then masks beyond the class, then the masks
among each other. -/
def fault? (s : RegisterSet) : Option RegisterError :=
  if Mask.capacity < s.total then some (.tooManyRegisters s.kind s.total)
  else match s.nameFault? 0 [] s.names with
    | some e => some e
    | none =>
      match s.strayRole? with
      | some role => some (.outsideClass s.kind role (s.mask role))
      | none => s.maskFault?

end RegisterSet

end ScopeMachine
