import ScopeMachine.LoadError

/-!
# Errors of running programs

Names are kept as they are and put into words when the error is shown. The category tells a host
what to make of an error: a fault of the unit, a failure of the program, a limit, or a stop that was
asked for.
-/

namespace ScopeMachine

inductive ErrorCategory where
  /-- The unit is not consistent. -/
  | fatal
  /-- A well-formed program failed. -/
  | runtime
  /-- A limit was reached. -/
  | resource
  /-- The host asked for a stop. -/
  | interrupt
  deriving DecidableEq, Repr, Inhabited

def ErrorCategory.label : ErrorCategory → String
  | fatal => "Fatal"
  | runtime => "Runtime"
  | resource => "Resource"
  | interrupt => "Interrupt"

inductive EvalError where
  | unresolvedBinding (name : Multiname)
  | usedBeforeInitialization (name : Multiname)
  | immutableBinding (name : QualifiedName)
  | operandStackOverflow (limit : Nat)
  | interrupted (pc : Nat)
  | malformed (cause : LoadError)
  | operandStackUnderflow (pc : Nat)
  | frameUnderflow
  deriving DecidableEq, Repr

namespace EvalError

def category : EvalError → ErrorCategory
  | unresolvedBinding _ | usedBeforeInitialization _ | immutableBinding _ => .runtime
  | operandStackOverflow _ => .resource
  | interrupted _ => .interrupt
  | malformed _ | operandStackUnderflow _ | frameUnderflow => .fatal

def isFatal (e : EvalError) : Bool := e.category == .fatal

def message (i : Interner) : EvalError → String
  | unresolvedBinding name => "unresolved binding: " ++ name.toText i
  | usedBeforeInitialization name => "binding used before initialization: " ++ name.toText i
  | immutableBinding name => "cannot assign to immutable binding: " ++ name.toText i
  | operandStackOverflow limit => s!"operand stack overflow (limit {limit})"
  | interrupted pc => s!"interrupted at pc {pc}"
  | malformed cause => "malformed code unit: " ++ cause.message i
  | operandStackUnderflow pc => s!"operand stack underflow at pc {pc}"
  | frameUnderflow => "cannot pop the base frame"

end EvalError

end ScopeMachine
