import ScopeMachine.Value

/-!
# Frames

A frame is a scope that has been entered: slots for the bindings its template declares, in the
template's order, and after them slots for bindings added later. Slots are found by local name
through an index.
-/

namespace ScopeMachine

structure Slot where
  name : QualifiedName
  value : Value
  flags : SlotFlags
  /-- It has been written; the value written may itself be the stand-in for a missing one. -/
  initialized : Bool
  deriving DecidableEq, Repr, Inhabited

namespace Slot

/-- The binding of a declaration as its scope is entered: `undefined` at once if it is hoisted,
otherwise not yet written. -/
def ofDeclaration (d : Declaration) : Slot :=
  if d.flags.hoisted then ⟨d.name, .undefined, d.flags, true⟩
  else ⟨d.name, .uninitialized, d.flags, false⟩

def write (s : Slot) (v : Value) : Slot :=
  { s with value := v, initialized := true }

def isFixed (s : Slot) : Bool := s.flags.immutable && s.initialized

end Slot

/-- Slots, and for each local name the numbers of the slots that have it. -/
structure Frame where
  /-- The template of the frame, unless the host built it. -/
  template : Option UInt16
  slots : Array Slot
  /-- Slot numbers by local name, in the order of declaration. -/
  index : Std.HashMap Name (Array Nat)

namespace Frame

def empty : Frame := ⟨none, #[], ∅⟩

instance : Inhabited Frame := ⟨empty⟩

def size (f : Frame) : Nat := f.slots.size

def isEmpty (f : Frame) : Bool := f.slots.isEmpty

def slotsNamed (f : Frame) (n : Name) : Array Nat :=
  f.index[n]?.getD #[]

/-- Adds a slot; its name must be new to the frame. -/
def declare (f : Frame) (s : Slot) : Frame :=
  { f with
    slots := f.slots.push s
    -- the number of the new slot comes last, so the numbers of a name ascend
    index := f.index.insert s.name.name ((f.slotsNamed s.name.name).push f.slots.size) }

def instantiate (id : UInt16) (t : Template) : Frame :=
  t.slots.foldl (fun f d => f.declare (.ofDeclaration d)) { empty with template := some id }

def candidates (f : Frame) (m : Multiname) : List (Nat × Slot) :=
  (f.slotsNamed m.name).toList.filterMap fun n =>
    (f.slots[n]?.filter fun s => m.accepts s.name).map (n, ·)

/-- The slot that answers to the reference, with its number: of several the one whose namespace
comes first in the reference. -/
def find? (f : Frame) (m : Multiname) : Option (Nat × Slot) :=
  (f.candidates m).minOn? fun (_, s) => m.rank s.name

def get? (f : Frame) (m : Multiname) : Option Value :=
  (f.find? m).map fun (_, s) => s.value

def findExact? (f : Frame) (q : QualifiedName) : Option Nat :=
  (f.slotsNamed q.name).toList.find? fun n => f.slots[n]?.any (·.name == q)

def modifySlot (f : Frame) (n : Nat) (change : Slot → Slot) : Frame :=
  { f with slots := f.slots.modify n change }

def write (f : Frame) (n : Nat) (v : Value) : Frame :=
  { f with slots := f.slots.modify n (·.write v) }

/-- Declares a binding with a value, or overwrites the one of exactly that name together with its
flags. -/
def define (f : Frame) (q : QualifiedName) (v : Value) (flags : SlotFlags) : Frame :=
  let s : Slot := ⟨q, v, flags, true⟩
  match f.findExact? q with
  | some n => { f with slots := f.slots.modify n fun _ => s }
  | none => f.declare s

end Frame

end ScopeMachine
