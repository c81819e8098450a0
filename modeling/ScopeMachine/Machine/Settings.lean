import ScopeMachine.Machine.Basic

/-!
# Settings

How a machine is made: from a unit and any number of settings, applied one after the other. What is
left unset is the run phase, no hosts, no flag, the default stack limit, and the unit's own base
frame under the default policy.
-/

namespace ScopeMachine

inductive Setting where
  | phase (phase : Phase)
  /-- Holds also for an environment that is given. -/
  | policy (policy : Policy)
  | env (env : Environment)
  /-- The host of the receiver also answers property reads, if no host was set before. -/
  | ambient (ambient : Ambient)
  /-- The host that answers property reads. -/
  | resolver (host : Host)
  | interrupt (flag : Interrupt)
  | stackLimit (limit : Nat)

structure Settings where
  phase : Phase
  policy : Option Policy
  env : Option Environment
  ambient : Option Ambient
  resolver : Option Host
  interrupt : Option Interrupt
  stackLimit : Nat

namespace Settings

def default : Settings := ⟨.default, none, none, none, none, none, OperandStack.defaultLimit⟩

def apply (s : Settings) : Setting → Settings
  | .phase phase => { s with phase }
  | .policy policy => { s with policy := some policy }
  | .env env => { s with env := some env }
  | .ambient ambient =>
    { s with ambient := some ambient, resolver := s.resolver <|> some ambient.host }
  | .resolver host => { s with resolver := some host }
  | .interrupt flag => { s with interrupt := some flag }
  | .stackLimit limit => { s with stackLimit := limit }

def ofList (settings : List Setting) : Settings :=
  settings.foldl apply default

/-- The environment that the settings give, or the unit's own. -/
def environment (s : Settings) (u : CodeUnit) : Except EvalError Environment :=
  match s.env with
  | some env => .ok env
  | none => Environment.ofUnit u

end Settings

namespace Machine

def ofSettings (u : CodeUnit) (s : Settings) : Except EvalError Machine :=
  match s.environment u with
  | .error e => .error e
  | .ok env =>
    .ok
      { unit := u
        phase := s.phase
        ambient := s.ambient
        resolver := s.resolver
        stack := .empty s.stackLimit
        env := match s.policy with
          | none => env
          | some policy => env.withPolicy policy
        pc := 0
        interrupt := s.interrupt
        lookups := [] }

def ofUnit (u : CodeUnit) : Except EvalError Machine :=
  ofSettings u .default

end Machine

end ScopeMachine
