import ScopeMachine.Environment.Frame
import ScopeMachine.EvalError
import ScopeMachine.Host
import ScopeMachine.Policy

/-!
# Environments

An environment is the stack of scopes that have been entered. A reference is looked up frame by
frame from the innermost one outwards and the first frame that has a binding for it decides; the
links between templates play no part. There is always a base frame, which cannot be left.
-/

namespace ScopeMachine

/-- Frames, from the innermost one outwards, and the policy for uninitialized reads. -/
structure Environment where
  innermost : Frame
  /-- The frames around the innermost one; the last one is the base frame. -/
  outer : List Frame
  policy : Policy

structure Binding where
  /-- How many frames out from the innermost one it is. -/
  distance : Nat
  index : Nat
  slot : Slot
  deriving DecidableEq, Repr

structure Reading where
  result : Except EvalError Value
  lookup : Option Lookup

namespace Environment

def ofBase (base : Frame) : Environment := ⟨base, [], .default⟩

instance : Inhabited Environment := ⟨ofBase default⟩

def ofUnit (u : CodeUnit) : Except EvalError Environment :=
  match u.templates.get u.base with
  | .ok t => .ok (ofBase (.instantiate u.base t))
  | .error e => .error (.malformed e)

def frames (env : Environment) : List Frame := env.innermost :: env.outer

def depth (env : Environment) : Nat := env.outer.length + 1

def base (env : Environment) : Frame := env.outer.getLastD env.innermost

def withPolicy (env : Environment) (policy : Policy) : Environment := { env with policy }

def push (env : Environment) (id : UInt16) (t : Template) : Environment :=
  { env with innermost := .instantiate id t, outer := env.frames }

def pop (env : Environment) : Except EvalError (Frame × Environment) :=
  match env.outer with
  | [] => .error .frameUnderflow
  | f :: outer => .ok (env.innermost, { env with innermost := f, outer })

def modifyFrame (env : Environment) (distance : Nat) (change : Frame → Frame) : Environment :=
  match distance with
  | 0 => { env with innermost := change env.innermost }
  | distance + 1 => { env with outer := env.outer.modify distance change }

/-- The first of the frames with a binding for the reference, the foremost of them `distance` frames
out. -/
def findIn (m : Multiname) : (distance : Nat) → List Frame → Option Binding
  | _, [] => none
  | distance, f :: rest =>
    match f.find? m with
    | some (index, slot) => some ⟨distance, index, slot⟩
    | none => findIn m (distance + 1) rest

def find? (env : Environment) (m : Multiname) : Option Binding :=
  findIn m 0 env.frames

def distance? (env : Environment) (m : Multiname) : Option Nat :=
  (env.find? m).map (·.distance)

def uninitialized (env : Environment) (m : Multiname) (phase : Phase) : Except EvalError Value :=
  match env.policy.onUninitialized phase with
  | .reject => .error (.usedBeforeInitialization m)
  | .sentinel => .ok .uninitialized
  | .undefined => .ok .undefined

/-- Reads the binding that the reference resolves to. Where there is none, the ambient receiver is
asked, if there is one. -/
def read (env : Environment) (m : Multiname) (phase : Phase) (ambient : Option Ambient) : Reading :=
  match env.find? m with
  | some b => ⟨if b.slot.initialized then .ok b.slot.value else env.uninitialized m phase, none⟩
  | none =>
    match ambient with
    | none => ⟨.error (.unresolvedBinding m), none⟩
    | some a => ⟨(a.answer m).mapError fun _ => .unresolvedBinding m, some (a.lookup m)⟩

/-- Writes the binding that the reference resolves to, unless it takes no further write. Where there
is none, a declaring write adds one to the innermost frame and any other fails. -/
def write (env : Environment) (m : Multiname) (v : Value) (declares : Bool) :
    Except EvalError Environment :=
  match env.find? m with
  | some b =>
    if b.slot.isFixed then .error (.immutableBinding b.slot.name)
    else .ok (env.modifyFrame b.distance (·.write b.index v))
  | none =>
    if declares then
      .ok (env.modifyFrame 0 (·.declare ⟨m.declarationName, v, .none, true⟩))
    else .error (.unresolvedBinding m)

/-- The write as it is done to the environment itself, where what a write that fails has already
changed would stay: value and mark of a slot are set one after the other. -/
def writeInPlace (m : Multiname) (v : Value) (declares : Bool) :
    ExceptT EvalError (StateM Environment) Unit := do
  match (← get).find? m with
  | some b =>
    if b.slot.isFixed then throw (.immutableBinding b.slot.name)
    modify (·.modifyFrame b.distance (·.modifySlot b.index ({ · with value := v })))
    modify (·.modifyFrame b.distance (·.modifySlot b.index ({ · with initialized := true })))
  | none =>
    if !declares then throw (.unresolvedBinding m)
    modify (·.modifyFrame 0 (·.declare ⟨m.declarationName, v, .none, true⟩))

def define (env : Environment) (q : QualifiedName) (v : Value) (flags : SlotFlags) : Environment :=
  env.modifyFrame 0 (·.define q v flags)

def defineGlobal (env : Environment) (q : QualifiedName) (v : Value) (flags : SlotFlags) :
    Environment :=
  env.modifyFrame env.outer.length (·.define q v flags)

end Environment

end ScopeMachine
