import ScopeMachine.EvalError
import ScopeMachine.Value

/-!
# The operand stack

A stack of values with a limit. A push beyond the limit fails and drops nothing.
-/

namespace ScopeMachine

structure OperandStack where
  values : List Value
  /-- Most values the stack takes. -/
  limit : Nat
  /-- Number of values, kept so that a push need not count. -/
  size : Nat
  size_eq : size = values.length
  deriving DecidableEq

namespace OperandStack

def defaultLimit : Nat := 64 * 1024

def empty (limit : Nat) : OperandStack := ⟨[], limit, 0, rfl⟩

instance : Inhabited OperandStack := ⟨empty defaultLimit⟩

def isEmpty (s : OperandStack) : Bool := s.values.isEmpty

def top? (s : OperandStack) : Option Value := s.values.head?

def push (s : OperandStack) (v : Value) : Except EvalError OperandStack :=
  if s.size < s.limit then
    .ok ⟨v :: s.values, s.limit, s.size + 1, by simp [s.size_eq]⟩
  else .error (.operandStackOverflow s.limit)

def pop (s : OperandStack) (pc : Nat) : Except EvalError (Value × OperandStack) :=
  match s with
  | ⟨v :: rest, limit, size, h⟩ => .ok (v, ⟨rest, limit, size - 1, by simp [h]⟩)
  | ⟨[], _, _, _⟩ => .error (.operandStackUnderflow pc)

def clear (s : OperandStack) : OperandStack := empty s.limit

end OperandStack

end ScopeMachine
