import ScopeMachine.Command.Plan
import ScopeMachine.EvalError
import ScopeMachine.Register.Catalogue

/-!
# Errors of commands
-/

namespace ScopeMachine.Command

/-- Why a command failed. Errors of units and of runs come with the interner that has their names. -/
inductive Error where
  | read (path : String) (fault : FileFault)
  | write (path : String) (fault : FileFault)
  | load (path : String) (cause : LoadError) (names : Interner)
  | eval (cause : EvalError) (names : Interner)
  | unknownTarget (name : String)
  | noHostTarget
  | invalidPhase (text : String)
  | descriptor (name : String) (cause : RegisterError)

def knownTargets : String :=
  ", ".intercalate (Architecture.catalogue.map (·.name))

def Error.message : Error → String
  | read path fault => s!"cannot read '{path}': {fault.message}"
  | write path fault => s!"cannot write '{path}': {fault.message}"
  | load path cause names => s!"invalid code unit '{path}': " ++ cause.message names
  | eval cause names => cause.message names
  | unknownTarget name => s!"unknown target '{name}' (known: {knownTargets})"
  | noHostTarget => "no register model for the host architecture; name a target explicitly"
  | invalidPhase text => s!"invalid phase '{text}' (expected 'static' or 'run')"
  | descriptor name cause => s!"descriptor '{name}' is inconsistent: {cause.message}"

end ScopeMachine.Command
