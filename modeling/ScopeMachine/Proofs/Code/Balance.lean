import ScopeMachine.Proofs.Code.Reading

/-!
# Balances of programs

How many operands and scopes more there are behind a program than in front of it, read off its
instructions without performing them.
-/

namespace ScopeMachine

namespace Instruction

def addsOperand : Instruction → Bool
  | .constant _ | .multiname _ | .lexicalRead _ => true
  | .pop | .dotRead _ | .lexicalWrite _ | .lexicalAssign _ | .pushFrame _ | .popFrame | .ret => false

def entersScope : Instruction → Bool
  | .pushFrame _ => true
  | _ => false

def operandBalance (p : List Instruction) : Int := p.countP addsOperand - p.count .pop

def scopeBalance (p : List Instruction) : Int := p.countP entersScope - p.count .popFrame

@[simp] theorem operandBalance_nil : operandBalance [] = 0 := rfl

@[simp] theorem scopeBalance_nil : scopeBalance [] = 0 := rfl

@[simp] theorem operandBalance_append (p q : List Instruction) :
    operandBalance (p ++ q) = operandBalance p + operandBalance q := by
  simp only [operandBalance, List.countP_append, List.count_append]
  omega

@[simp] theorem scopeBalance_append (p q : List Instruction) :
    scopeBalance (p ++ q) = scopeBalance p + scopeBalance q := by
  simp only [scopeBalance, List.countP_append, List.count_append]
  omega

theorem operandBalance_singleton (i : Instruction) :
    operandBalance [i] = (if i.addsOperand then 1 else 0) - if i = .pop then 1 else 0 := by
  cases i <;> rfl

theorem scopeBalance_singleton (i : Instruction) :
    scopeBalance [i] = (if i.entersScope then 1 else 0) - if i = .popFrame then 1 else 0 := by
  cases i <;> rfl

end Instruction

/-- The instructions of the unit that stand in front of an offset. -/
def CodeUnit.before (u : CodeUnit) (offset : Nat) : List Instruction :=
  ((Instruction.decode u.code).instructions.filter (·.1 < offset)).map Prod.snd

end ScopeMachine
