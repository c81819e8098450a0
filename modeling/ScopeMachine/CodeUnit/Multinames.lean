import ScopeMachine.Image.Basic
import ScopeMachine.Instruction
import ScopeMachine.LoadError

/-!
# The table of multinames

Every reference of a code unit, by the index that instructions carry.
-/

namespace ScopeMachine

structure MultinameTable where
  entries : Array Multiname
  /-- Every entry is within reach of an index. -/
  size_le : entries.size ≤ tableLimit

namespace MultinameTable

def empty : MultinameTable := ⟨#[], Nat.zero_le _⟩

instance : Inhabited MultinameTable := ⟨empty⟩

def size (t : MultinameTable) : Nat := t.entries.size

def ofEntries (entries : Array Multiname) : Except LoadError MultinameTable :=
  if h : entries.size ≤ tableLimit then .ok ⟨entries, h⟩
  else .error (.tableTooLarge entries.size)

/-- The multiname of a written reference: its name is interned first, then its namespaces. -/
def internReference (r : Image.Reference) : Loader Multiname := do
  let name ← Loader.intern r.name
  let namespaces ← r.namespaces.mapM Loader.intern
  return .ofNamespaces name namespaces

/-- The table of some written references. All of them are interned, even if they are too many. -/
def load (references : List Image.Reference) : Loader MultinameTable := do
  -- the size is looked at only now: a table that is refused leaves its names interned
  let entries ← references.mapM internReference
  ofEntries entries.toArray

def resolve (t : MultinameTable) (index : Nat) : Except LoadError Multiname :=
  match t.entries[index]? with
  | some m => .ok m
  | none => .error (.multinameOutOfRange index t.size)

def get (t : MultinameTable) (index : UInt16) : Except LoadError Multiname :=
  t.resolve index.toNat

end MultinameTable

end ScopeMachine
