import ScopeMachine.Name.Interner

/-!
# Declared names and references to them

A binding is declared under a local name with at most one namespace. A reference is a multiname: a
local name with a list of namespaces in order of priority. A reference without namespaces answers
to unqualified bindings only, any other one to bindings of its namespaces only.
-/

namespace ScopeMachine

structure QualifiedName where
  qualifier : Option Name
  name : Name
  deriving DecidableEq, Hashable, Repr, Inhabited

def QualifiedName.toText (i : Interner) (q : QualifiedName) : String :=
  match q.qualifier with
  | none => i.text q.name
  | some ns => i.text ns ++ "::" ++ i.text q.name

structure Multiname where
  name : Name
  /-- Namespaces to look in, the first one first. -/
  namespaces : List Name
  deriving DecidableEq, Repr, Inhabited

namespace Multiname

/-- The reference to `name` in some namespaces. A namespace that comes again has no say. -/
def ofNamespaces (name : Name) (namespaces : List Name) : Multiname :=
  ⟨name, namespaces.eraseDups⟩

def unqualified (name : Name) : Multiname := ⟨name, []⟩

def isQualified (m : Multiname) : Bool := !m.namespaces.isEmpty

def accepts (m : Multiname) (q : QualifiedName) : Bool :=
  q.name == m.name &&
    match q.qualifier with
    | none => m.namespaces.isEmpty
    | some ns => m.namespaces.contains ns

/-- Where the namespace of a binding that answers stands in the list; smaller comes first. -/
def rank (m : Multiname) (q : QualifiedName) : Nat :=
  match q.qualifier with
  | none => 0
  | some ns => m.namespaces.idxOf ns

/-- The name that a declaring write under the reference creates: that of its first namespace. -/
def declarationName (m : Multiname) : QualifiedName :=
  ⟨m.namespaces.head?, m.name⟩

def toText (i : Interner) (m : Multiname) : String :=
  if m.namespaces.isEmpty then i.text m.name
  else "\x7b" ++ ",".intercalate (m.namespaces.map i.text) ++ "\x7d::" ++ i.text m.name

end Multiname

end ScopeMachine
