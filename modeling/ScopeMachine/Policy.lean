/-!
# Phases and the reading of uninitialized bindings

A read happens in a phase, and a policy says for each phase what becomes of a read that meets a
declared binding before its first write.
-/

namespace ScopeMachine

/-- When a binding is resolved. -/
inductive Phase where
  /-- While a unit is compiled. -/
  | static
  /-- While it runs. -/
  | run
  deriving DecidableEq, Repr, Inhabited

namespace Phase

def default : Phase := run

def label : Phase → String
  | static => "Static"
  | run => "Run"

end Phase

/-- What the read of an uninitialized binding comes to. -/
inductive UninitializedRead where
  /-- It fails. -/
  | reject
  /-- It yields the stand-in for a missing value. -/
  | sentinel
  /-- It yields `undefined`. -/
  | undefined
  deriving DecidableEq, Repr, Inhabited

def UninitializedRead.label : UninitializedRead → String
  | reject => "Reject"
  | sentinel => "Sentinel"
  | undefined => "Undefined"

structure Policy where
  atStatic : UninitializedRead
  atRun : UninitializedRead
  deriving DecidableEq, Repr

namespace Policy

/-- Compile-time reads fail, run-time reads yield the stand-in. -/
def default : Policy := ⟨.reject, .sentinel⟩

instance : Inhabited Policy := ⟨default⟩

def strict : Policy := ⟨.reject, .reject⟩

def onUninitialized (p : Policy) : Phase → UninitializedRead
  | .static => p.atStatic
  | .run => p.atRun

end Policy

end ScopeMachine
