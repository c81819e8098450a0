import ScopeMachine.CodeUnit.Load
import ScopeMachine.Command.Error
import ScopeMachine.Image.Encode
import ScopeMachine.Machine.Run
import ScopeMachine.Machine.Settings

/-!
# The demonstration of nested scopes

A small unit with a scope inside another, run step by step with a line for each step.
-/

namespace ScopeMachine.Command

open Text

/-- The base scope declares `a` and the inner scope `b`. The program reads `a` too early, gives both a
value, reads both, leaves the inner scope and reads `b` again, which fails. -/
def demoImage : Image where
  multinames := [⟨"a", []⟩, ⟨"b", []⟩]
  frames := [⟨none, [⟨"a", none, false, false⟩]⟩, ⟨some 0, [⟨"b", none, false, false⟩]⟩]
  constants := [.int 1, .int 2]
  base := 0
  code := Instruction.assemble
    [.lexicalRead 0, .pop, .constant 0, .lexicalWrite 0, .pop, .pushFrame 1, .constant 1,
      .lexicalWrite 1, .pop, .lexicalRead 0, .pop, .lexicalRead 1, .pop, .popFrame, .lexicalRead 1,
      .ret]

def traceHead (m : Machine) : String :=
  let text := match Instruction.decodeAt m.unit.code m.pc with
    | .ok i => i.toText
    | .error _ => "<end>"
  alignRight 4 (toString m.pc) ++ "  " ++ alignLeft 18 text

def traceTail (m : Machine) : String :=
  let top := match m.stack.top? with
    | some v => v.toText
    | none => "-"
  s!" depth={m.env.depth} top={top}\n"

/-- Appends a line for each step until the run is finished or a step fails. -/
def trace (m : Machine) (out : String) : String :=
  let out := out ++ traceHead m
  match _ : m.step with
  | (.ok .proceed, after) => trace after (out ++ traceTail after)
  | (.ok (.finished v), _) => out ++ " => " ++ v.toText ++ "\n"
  | (.error e, _) => out ++ " error: " ++ e.message m.unit.interner ++ "\n"
  termination_by m.unit.code.size - m.pc
  decreasing_by
    have stepped : m.step = (.ok .proceed, after) := by assumption
    have ⟨inside, forward, same⟩ := Machine.pc_lt_of_step stepped
    rw [same]
    omega

def demoTrace (phase : Phase) : Except Error String :=
  match CodeUnit.load .new demoImage with
  | (.error e, i) => .error (.eval (.malformed e) i)
  | (.ok u, i) =>
    match Machine.ofSettings u (.ofList [.phase phase]) with
    | .error e => .error (.eval e i)
    | .ok m => .ok (trace m s!"phase: {phase.label}\n")

/-- Runs the demonstration, after its image has been written to `emit` if that is given. -/
def demo (phase : Phase) (emit : Option String) : Plan (Except Error String) :=
  match emit with
  | none => .done (demoTrace phase)
  | some path =>
    .write path demoImage.encode fun
      | .ok () => demoTrace phase
      | .error fault => .error (.write path fault)

end ScopeMachine.Command
