import ScopeMachine.Environment.Basic
import ScopeMachine.OperandStack

/-!
# Machines

A machine runs one code unit. What instructions work on, the operands and the environment, is its
state; what they only consult is its context. The machine adds the position in the code, the flag by
which the host stops it, and a log of what it asked hosts.
-/

namespace ScopeMachine

structure Interrupt where
  requested : Bool
  deriving DecidableEq, Repr, Inhabited

namespace Interrupt

def new : Interrupt := ⟨false⟩

def request (_ : Interrupt) : Interrupt := ⟨true⟩

def clear (_ : Interrupt) : Interrupt := ⟨false⟩

end Interrupt

/-- What instructions consult and do not change. -/
structure Context where
  unit : CodeUnit
  phase : Phase
  /-- Stands in where no scope declares a name. -/
  ambient : Option Ambient
  /-- Answers property reads. -/
  resolver : Option Host

/-- What instructions work on. -/
structure State where
  stack : OperandStack
  env : Environment

structure Machine extends Context, State where
  /-- Offset of the next instruction. -/
  pc : Nat
  /-- The flag that is checked before each instruction, if one is attached. -/
  interrupt : Option Interrupt
  /-- What hosts were asked, the last question first. -/
  lookups : List Lookup

namespace Machine

def isInterrupted (m : Machine) : Bool :=
  m.interrupt.any (·.requested)

def requestInterrupt (m : Machine) : Machine :=
  { m with interrupt := m.interrupt.map (·.request) }

def clearInterrupt (m : Machine) : Machine :=
  { m with interrupt := m.interrupt.map (·.clear) }

/-- Logs a question that was put to a host, and the stop that the host may have asked for. -/
def note (m : Machine) (lookup : Option Lookup) : Machine :=
  match lookup with
  | none => m
  | some l =>
    let m := { m with lookups := l :: m.lookups }
    if l.interrupts then m.requestInterrupt else m

def withPhase (m : Machine) (phase : Phase) : Machine := { m with phase }

/-- The machine at the start of its unit with no operands. Bindings stay. -/
def rewind (m : Machine) : Machine := { m with pc := 0, stack := m.stack.clear }

end Machine

end ScopeMachine
