import ScopeMachine.CodeUnit.Listing
import ScopeMachine.CodeUnit.Load
import ScopeMachine.Command.Error
import ScopeMachine.Image.Decode
import ScopeMachine.Machine.Run
import ScopeMachine.Machine.Settings

/-!
# Commands on stored units

Listing and running a code unit whose image is in a file.
-/

namespace ScopeMachine.Command

def parsePhase (text : String) : Except Error Phase :=
  if text = "static" then .ok .static
  else if text = "run" then .ok .run
  else .error (.invalidPhase text)

def loadUnit (path : String) (content : Except FileFault (List UInt8)) : Except Error CodeUnit :=
  match content with
  | .error fault => .error (.read path fault)
  | .ok bytes =>
    match Image.decode bytes with
    -- a fault of the bytes mentions no name, so any interner will do
    | .error fault => .error (.load path (.image fault) .new)
    | .ok image =>
      match CodeUnit.load .new image with
      | (.error e, i) => .error (.load path e i)
      | (.ok u, _) => .ok u

def disassemble (path : String) : Plan (Except Error String) :=
  .read path fun content => (loadUnit path content).map (·.listing)

def runUnit (phase : Phase) (u : CodeUnit) : Except Error String :=
  match Machine.ofSettings u (.ofList [.phase phase]) with
  | .error e => .error (.eval e u.interner)
  | .ok m =>
    match m.run.1 with
    | .ok v => .ok (v.toText ++ "\n")
    | .error e => .error (.eval e u.interner)

def run (path : String) (phase : Phase) : Plan (Except Error String) :=
  .read path fun content => (loadUnit path content).bind (runUnit phase)

end ScopeMachine.Command
