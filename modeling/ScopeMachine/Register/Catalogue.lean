import ScopeMachine.Register.Architecture

/-!
# The catalogue of architectures

x86-64 under the System V and the Microsoft calling conventions, 32-bit x86 and 32-bit ARM.
-/

namespace ScopeMachine.Architecture

/-- A register set whose masks follow from those that conventions lay down: an allocator may hand out
what is not reserved, and may use without saving what is also volatile. A wrapper of host calls may
overwrite what is volatile. -/
def registerSet (kind : RegisterClass) (names : List String)
    (volatile nonVolatile reserved argument callReturn scriptReturn singleByte : Mask) :
    RegisterSet :=
  let all := Mask.low names.length
  let allocatable := all.without reserved
  { kind
    names
    allocatableCount := allocatable.count
    all
    volatile
    nonVolatile
    reserved
    allocatable
    argument
    callReturn
    scriptReturn
    wrapper := volatile
    temp := volatile.without reserved
    singleByte }

def numbered (stem : String) (count : Nat) : List String :=
  (List.range count).map fun n => stem ++ toString n

/-- The general registers of x86-64: `rsp` (4) and the scratch register `r11` are reserved, results
come back in `rax` and in `rcx` (0 and 1), and every saved or unsaved register has a low byte. -/
def x64General (volatile nonVolatile argument : Mask) : RegisterSet :=
  registerSet .general
    ["rax", "rcx", "rdx", "rbx", "rsp", "rbp", "rsi", "rdi", "r8", "r9", "r10", "r11", "r12", "r13",
      "r14", "r15"]
    volatile nonVolatile (.ofCodes [4, 11]) argument (.of 0) (.of 1) (volatile.union nonVolatile)

/-- The float registers of x86-64: `xmm15` is the scratch register. -/
def x64Float (volatile argument : Mask) : RegisterSet :=
  registerSet .float (numbered "xmm" 16) volatile ((Mask.low 16).without volatile) (.of 15) argument
    (.of 0) .empty .empty

def x64Frame (shadowStackSpace : Nat) : FrameLayout :=
  ⟨8, 256, 1, 24, shadowStackSpace, -1⟩

def x64SysV : Architecture where
  name := "x64-sysv"
  general := x64General (.ofCodes [0, 1, 2, 6, 7, 8, 9, 10, 11]) (.ofCodes [3, 5, 12, 13, 14, 15])
    (.ofCodes [7, 6, 2, 1, 8, 9])
  float := x64Float (.low 16) (.low 8)
  stackPointer := 4
  frame := x64Frame 0

def x64Win64 : Architecture where
  name := "x64-win64"
  general := x64General (.ofCodes [0, 1, 2, 8, 9, 10, 11]) (.ofCodes [3, 6, 7, 5, 12, 13, 14, 15])
    (.ofCodes [1, 2, 8, 9])
  float := x64Float (.low 6) (.low 4)
  stackPointer := 4
  frame := x64Frame 32

/-- 32-bit x86: arguments travel on the stack, wide results come back in two registers, and only the
first four registers have a low byte. -/
def x86 : Architecture where
  name := "x86"
  general := registerSet .general ["eax", "ecx", "edx", "ebx", "esp", "ebp", "esi", "edi"]
    (.ofCodes [0, 1, 2]) (.ofCodes [3, 5, 6, 7]) (.of 4) .empty (.ofCodes [0, 2]) (.ofCodes [1, 2])
    (.ofCodes [0, 1, 2, 3])
  float := registerSet .float (numbered "xmm" 8) (.low 8) .empty (.of 7) .empty (.of 0) .empty
    .empty
  stackPointer := 4
  frame := ⟨4, 256, 2, 16, 0, -1⟩

/-- 32-bit ARM with hardware floating point: `r12` is the scratch register, and every core register
but the stack pointer and the program counter has byte loads and stores. -/
def arm : Architecture where
  name := "arm"
  general :=
    let argument := Mask.low 4
    let volatile := argument.union (.ofCodes [12, 14])
    let nonVolatile := (Mask.low 12).without argument
    registerSet .general (numbered "r" 13 ++ ["sp", "lr", "pc"]) volatile nonVolatile
      (.ofCodes [12, 13, 14, 15]) argument (.ofCodes [0, 1]) (.ofCodes [2, 3])
      (volatile.union nonVolatile)
  float := registerSet .float (numbered "d" 16) (.low 8) ((Mask.low 16).without (.low 8)) (.of 15)
    (.low 8) (.of 0) .empty .empty
  stackPointer := 13
  frame := ⟨4, 256, 2, 20, 0, -1⟩

def catalogue : List Architecture := [x64SysV, x64Win64, x86, arm]

def named? (name : String) : Option Architecture :=
  catalogue.find? (·.name == name)

/-- The architecture that commands describe when none is named; not every host has one. -/
def host? : Option Architecture := some x64SysV

end ScopeMachine.Architecture
