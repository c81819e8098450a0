import ScopeMachine.Command.Line

/-!
# The program

Carries out the plan of the command line on the disk and prints its outcome.
-/

namespace ScopeMachine

open Command

/-- The fault behind an error of the system. Some calls report the number of an error with its sign
turned. -/
def faultOf : IO.Error → FileFault
  | .noFileOrDirectory .. => .notFound
  | .permissionDenied .. => .permissionDenied
  | .inappropriateType _ number _ =>
    if number = 20 ∨ number = -20 then .notDirectory else .isDirectory
  | .invalidArgument _ number text =>
    if number = 36 ∨ number = -36 then .nameTooLong else .other text
  | e => .other e.toString

def Command.Plan.perform : Plan α → IO α
  | .done result => return result
  | .read path next => do
    match ← (IO.FS.readBinFile path).toBaseIO with
    | .ok content => return next (.ok content.data.toList)
    | .error e => return next (.error (faultOf e))
  | .write path content next => do
    match ← (IO.FS.writeBinFile path ⟨content.toArray⟩).toBaseIO with
    | .ok () => return next (.ok ())
    | .error e => return next (.error (faultOf e))

end ScopeMachine

def main (arguments : List String) : IO UInt32 := do
  let outcome ← (ScopeMachine.Command.call arguments).perform
  IO.eprint outcome.stderr
  IO.print outcome.stdout
  return outcome.exitCode.toUInt32
