import ScopeMachine.Machine.Basic

/-!
# Steps

What one instruction does, and what the machine makes of it. An instruction works on the state in
place: where it fails, what it did before the failure stays done. The position moves only after an
instruction that did not fail.
-/

namespace ScopeMachine

inductive Step where
  | proceed
  | finished (result : Value)
  deriving DecidableEq, Repr, Inhabited

/-- What an instruction does: its outcome or its error, the state it leaves in either case, and the
question it put to a host. -/
structure Effect where
  result : Except EvalError Step
  state : State
  lookup : Option Lookup

namespace Effect

/-- The effect of an instruction that does not finish the run: it changed the state, as far as it
came, and asked that question. -/
def ofChange (change : Except EvalError Unit × State) (lookup : Option Lookup) : Effect :=
  ⟨change.1.map fun _ => .proceed, change.2, lookup⟩

def fail (e : EvalError) (s : State) : Effect := ⟨.error e, s, none⟩

end Effect

namespace State

def push (s : State) (v : Value) : Except EvalError Unit × State :=
  match s.stack.push v with
  | .error e => (.error e, s)
  | .ok stack => (.ok (), { s with stack })

def drop (s : State) (pc : Nat) : Except EvalError Unit × State :=
  match s.stack.pop pc with
  | .error e => (.error e, s)
  | .ok (_, stack) => (.ok (), { s with stack })

/-- Puts a value in place of the top operand: the operand is gone by the time of the push. -/
def replaceTop (s : State) (pc : Nat) (v : Value) : Except EvalError Unit × State :=
  match s.drop pc with
  | (.error e, s) => (.error e, s)
  | (.ok (), s) => s.push v

/-- Writes the top operand, which stays, to a binding. -/
def writeTop (s : State) (pc : Nat) (m : Multiname) (declares : Bool) :
    Except EvalError Unit × State :=
  match s.stack.top? with
  | none => (.error (.operandStackUnderflow pc), s)
  | some v =>
    match s.env.write m v declares with
    | .error e => (.error e, s)
    | .ok env => (.ok (), { s with env })

def enter (s : State) (id : UInt16) (t : Template) : State :=
  { s with env := s.env.push id t }

def leave (s : State) : Except EvalError Unit × State :=
  match s.env.pop with
  | .error e => (.error e, s)
  | .ok (_, env) => (.ok (), { s with env })

def takeResult (s : State) : Value × State :=
  -- the position only matters to the error, which is not reported
  match s.stack.pop 0 with
  | .ok (v, stack) => (v, { s with stack })
  | .error _ => (.undefined, s)

/-- The result of a run that comes to the end of its code: the top operand, which stays, or
`undefined` if there is none. -/
def peekResult (s : State) : Value :=
  s.stack.top?.getD .undefined

end State

namespace Context

def withMultiname (c : Context) (index : UInt16) (s : State) (effect : Multiname → Effect) :
    Effect :=
  match c.unit.multinames.get index with
  | .error e => .fail (.malformed e) s
  | .ok m => effect m

def dotRead (c : Context) (pc : Nat) (m : Multiname) (s : State) : Effect :=
  match s.stack.top? with
  | none => .fail (.operandStackUnderflow pc) s
  | some base =>
    match c.resolver with
    | none => .fail (.unresolvedBinding m) s
    | some host =>
      match host.answer base m with
      | .error _ => ⟨.error (.unresolvedBinding m), s, some (host.lookup base m)⟩
      | .ok v => .ofChange (s.replaceTop pc v) (some (host.lookup base m))

def lexicalRead (c : Context) (m : Multiname) (s : State) : Effect :=
  let reading := s.env.read m c.phase c.ambient
  match reading.result with
  | .error e => ⟨.error e, s, reading.lookup⟩
  | .ok v => .ofChange (s.push v) reading.lookup

def execute (c : Context) (pc : Nat) (i : Instruction) (s : State) : Effect :=
  match i with
  | .constant n =>
    match c.unit.constant n with
    | .error e => .fail (.malformed e) s
    | .ok k => .ofChange (s.push (.ofConstant c.unit.interner k)) none
  | .pop => .ofChange (s.drop pc) none
  | .multiname n => c.withMultiname n s fun _ => .ofChange (s.push (.multiname n)) none
  | .dotRead n => c.withMultiname n s fun m => c.dotRead pc m s
  | .lexicalRead n => c.withMultiname n s fun m => c.lexicalRead m s
  | .lexicalWrite n => c.withMultiname n s fun m => .ofChange (s.writeTop pc m true) none
  | .lexicalAssign n => c.withMultiname n s fun m => .ofChange (s.writeTop pc m false) none
  | .pushFrame n =>
    match c.unit.templates.get n with
    | .error e => .fail (.malformed e) s
    | .ok t => .ofChange (.ok (), s.enter n t) none
  | .popFrame => .ofChange s.leave none
  | .ret =>
    let (v, s) := s.takeResult
    ⟨.ok (.finished v), s, none⟩

end Context

namespace Machine

def commit (m : Machine) (width : Nat) (effect : Effect) : Except EvalError Step × Machine :=
  -- the question was put even if the answer is of no use
  let after := { m.note effect.lookup with toState := effect.state }
  match effect.result with
  | .error e => (.error e, after)
  | .ok .proceed => (.ok .proceed, { after with pc := m.pc + width })
  -- a return anywhere leaves the machine at the end of its code
  | .ok (.finished v) => (.ok (.finished v), { after with pc := m.unit.code.size })

/-- Executes the next instruction. A stop that was asked for comes first; at the end of the code the
run is finished. -/
def step (m : Machine) : Except EvalError Step × Machine :=
  if m.isInterrupted then (.error (.interrupted m.pc), m)
  else if m.pc < m.unit.code.size then
    match Instruction.decodeAt m.unit.code m.pc with
    | .error e => (.error (.malformed e), m)
    | .ok i => m.commit i.width (m.toContext.execute m.pc i m.toState)
  else (.ok (.finished m.toState.peekResult), m)

end Machine

end ScopeMachine
