import ScopeMachine.Command.Error

/-!
# The report on an architecture

A table of the registers of each class, the masks of their roles, and the frame layout.
-/

namespace ScopeMachine.Command

open Text

def registerRow (s : RegisterSet) (code : UInt8) (name : String) : String :=
  let save := match s.classify code with
    | .volatile => "volatile"
    | .nonVolatile => "non-volatile"
    | .unclassified => "-"
  let mark (holds : Bool) (text : String) := if holds then text else "-"
  "  ".intercalate
    ["", alignRight 4 (toString code.toNat), alignLeft 5 name, alignLeft 12 save,
      alignLeft 5 (mark (s.isAllocatable code) "yes"),
      alignLeft 3 (mark (s.argument.contains code) "arg"),
      mark (s.callReturn.contains code) "ret"] ++ "\n"

def shownRoles : List Role :=
  [.all, .volatile, .nonVolatile, .reserved, .allocatable, .argument, .callReturn, .scriptReturn,
    .temp]

def registerTable (s : RegisterSet) : String :=
  s!"{s.kind.label} registers: {s.total} total, {s.allocatableCount} allocatable\n" ++
    "  code  name   save          alloc  arg  ret\n" ++
    String.join (s.registers.map fun (code, name) => registerRow s code name) ++
    String.join (shownRoles.map fun role =>
      "  " ++ alignLeft 15 role.label ++ " " ++ (s.mask role).toText ++ "\n")

def frameLine (f : FrameLayout) : String :=
  s!"frame: slot {f.stackSlotSize} bytes, {f.maxStackSlots} slots max, " ++
    s!"double alignment {f.doubleStackAlignment}, slack {f.frameSlackSize} bytes, " ++
    s!"shadow space {f.shadowStackSpace} bytes\n"

def architectureReport (a : Architecture) : String :=
  let stackPointer := match a.general.name a.stackPointer with
    | .ok name => name
    | .error _ => "?"
  s!"{a.name} (stack pointer: {stackPointer})\n" ++
    "\n" ++ registerTable a.general ++ "\n" ++ registerTable a.float ++ "\n" ++ frameLine a.frame

/-- The architecture of the given name, or that of the host. -/
def target : Option String → Except Error Architecture
  | some name => (Architecture.named? name).elim (.error (.unknownTarget name)) .ok
  | none => Architecture.host?.elim (.error .noHostTarget) .ok

def showRegisters (name? : Option String) : Except Error String := do
  let a ← target name?
  match a.fault? with
  | some cause => throw (.descriptor a.name cause)
  | none => return architectureReport a

end ScopeMachine.Command
