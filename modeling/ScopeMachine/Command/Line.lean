import ScopeMachine.Command.Demo
import ScopeMachine.Command.File
import ScopeMachine.Command.Registers

/-!
# The command line

What the program prints, and its exit code, for the arguments it is given.
-/

namespace ScopeMachine.Command

structure Outcome where
  stdout : String
  stderr : String
  exitCode : UInt8
  deriving DecidableEq, Repr, Inhabited

def version : String := "0.1.0-alpha.1"

def usage : String :=
  String.join <| List.map (· ++ "\n")
    ["Strata runtime core",
      "",
      "Usage: strata <command> [options]",
      "",
      "Commands:",
      "  regs [target]        Print a target's register model (default: host)",
      "  demo                 Run the nested-scope demo with a trace",
      "  disasm <unit.bin>    Disassemble a code unit",
      "  run <unit.bin>       Execute a code unit and print its result",
      "  help                 Show this help message",
      "  version              Show version information",
      "",
      "Targets: x64-sysv, x64-win64, x86, arm",
      "",
      "Demo and run options:",
      "  --phase=static|run   Resolution phase (default: run)",
      "  --emit=<path>        (demo) Also write the demo unit to <path>",
      "",
      "Set RUST_LOG (e.g. RUST_LOG=strata_eval=trace) for tracing output."]

def report (warnings : String) : Except Error String → Outcome
  | .ok text => ⟨text, warnings, 0⟩
  | .error e => ⟨"", warnings ++ "error: " ++ e.message ++ "\n", 1⟩

/-- What follows `start` in the text, if the text starts with it. -/
def after? (start text : String) : Option String :=
  if start.toList.isPrefixOf text.toList then
    some (String.ofList (text.toList.drop start.length))
  else none

structure DemoOptions where
  phase : Except Error Phase
  emit : Option String
  warnings : String

/-- The options after one more argument. The last phase and the last path count. -/
def DemoOptions.add (o : DemoOptions) (argument : String) : DemoOptions :=
  match after? "--phase=" argument with
  | some phase => { o with phase := parsePhase phase }
  | none =>
    match after? "--emit=" argument with
    | some path => { o with emit := some path }
    | none =>
      { o with warnings := o.warnings ++ s!"warning: ignoring unknown option '{argument}'\n" }

/-- The demonstration under some arguments. A wrong phase comes before anything is written. -/
def demoCommand (arguments : List String) : Plan Outcome :=
  let o := arguments.foldl DemoOptions.add ⟨.ok .run, none, ""⟩
  match o.phase with
  | .error e => .done (report o.warnings (.error e))
  | .ok phase => (demo phase o.emit).map (report o.warnings)

structure RunOptions where
  phase : Except Error Phase
  path : Option String

/-- The options after one more argument: the last phase counts, and the first argument without a
dash in front is the path. -/
def RunOptions.add (o : RunOptions) (argument : String) : RunOptions :=
  match after? "--phase=" argument with
  | some phase => { o with phase := parsePhase phase }
  | none =>
    if (after? "-" argument).isNone && o.path.isNone then { o with path := some argument } else o

/-- The run of a unit under some arguments. A missing path comes before a wrong phase. -/
def runCommand (arguments : List String) : Plan Outcome :=
  let o := arguments.foldl RunOptions.add ⟨.ok .run, none⟩
  match o.path with
  | none =>
    .done ⟨"", "error: missing file path\nUsage: strata run <unit.bin> [--phase=static|run]\n", 1⟩
  | some path =>
    match o.phase with
    | .error e => .done (report "" (.error e))
    | .ok phase => (run path phase).map (report "")

def call : List String → Plan Outcome
  | [] => .done ⟨usage, "", 0⟩
  | command :: arguments =>
    if command = "regs" then .done (report "" (showRegisters arguments.head?))
    else if command = "demo" then demoCommand arguments
    else if command = "disasm" then
      match arguments with
      | [] => .done ⟨"", "Usage: strata disasm <unit.bin>\n", 1⟩
      | path :: _ => (disassemble path).map (report "")
    else if command = "run" then runCommand arguments
    else if command = "help" ∨ command = "--help" ∨ command = "-h" then .done ⟨usage, "", 0⟩
    else if command = "version" ∨ command = "--version" ∨ command = "-V" then
      .done ⟨s!"strata {version}\n", "", 0⟩
    else .done ⟨usage, s!"Unknown command: {command}\n\n", 1⟩

end ScopeMachine.Command
