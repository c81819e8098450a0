import ScopeMachine.Value

/-!
# Hosts

Objects belong to the host. A running program asks it for a property of an object, and for a
property of a receiver when no scope declares a name. A host's answer depends on the question alone;
while it answers, it may ask the program to stop.
-/

namespace ScopeMachine

inductive PropertyError where
  | notFound
  deriving DecidableEq, Repr

def PropertyError.message : PropertyError → String
  | notFound => "property not found"

structure PropertyTable where
  properties : Std.HashMap (UInt32 × QualifiedName) Value

namespace PropertyTable

def empty : PropertyTable := ⟨∅⟩

instance : Inhabited PropertyTable := ⟨empty⟩

def size (t : PropertyTable) : Nat := t.properties.size

def isEmpty (t : PropertyTable) : Bool := t.properties.isEmpty

def set (t : PropertyTable) (object : UInt32) (name : QualifiedName) (v : Value) : PropertyTable :=
  ⟨t.properties.insert (object, name) v⟩

def get? (t : PropertyTable) (object : UInt32) (name : QualifiedName) : Option Value :=
  t.properties[(object, name)]?

/-- The property that a reference finds: the unqualified one, or for a reference with namespaces
that of the first namespace that has one. Only objects have properties. -/
def read (t : PropertyTable) (base : Value) (m : Multiname) : Except PropertyError Value :=
  match base with
  | .object object =>
    let found :=
      if m.isQualified then m.namespaces.findSome? fun ns => t.get? object ⟨some ns, m.name⟩
      else t.get? object ⟨none, m.name⟩
    match found with
    | some v => .ok v
    | none => .error .notFound
  | _ => .error .notFound

end PropertyTable

structure Host where
  /-- Says in a log who was asked. -/
  name : String
  /-- The property of the value, if the host knows one. -/
  answer : Value → Multiname → Except PropertyError Value
  /-- Whether the host asks for a stop before it answers. -/
  interrupts : Value → Multiname → Bool

/-- The host that answers from a table, and asks for a stop when it is asked for one certain name. -/
def Host.ofTable (name : String) (t : PropertyTable) (stopsAt : Option Name) : Host where
  name
  answer := t.read
  interrupts _ m := some m.name == stopsAt

structure Lookup where
  host : String
  base : Value
  name : Multiname
  /-- The host asked for a stop. -/
  interrupts : Bool
  deriving DecidableEq, Repr

def Host.lookup (h : Host) (base : Value) (m : Multiname) : Lookup :=
  ⟨h.name, base, m, h.interrupts base m⟩

def Lookup.toText (i : Interner) (l : Lookup) : String :=
  l.host ++ ": " ++ l.base.toText ++ " " ++ l.name.toText i

/-- The receiver whose properties stand in for bindings that no scope declares. -/
structure Ambient where
  receiver : Value
  host : Host

namespace Ambient

def answer (a : Ambient) (m : Multiname) : Except PropertyError Value :=
  a.host.answer a.receiver m

def lookup (a : Ambient) (m : Multiname) : Lookup :=
  a.host.lookup a.receiver m

end Ambient

end ScopeMachine
