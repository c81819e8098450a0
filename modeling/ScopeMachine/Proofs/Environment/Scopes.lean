import Std.Data.ExtHashMap
import ScopeMachine.Environment.Basic

/-!
# Environments as nested maps

What an environment is to those who call it: a finite map from declared names to entries for each
scope, the innermost one first, and no scope without a map. There are no slots, no index and no
order of declaration here.
-/

namespace ScopeMachine

structure Entry where
  value : Value
  flags : SlotFlags
  initialized : Bool

def Entry.ofDeclaration (d : Declaration) : Entry :=
  if d.flags.hoisted then ⟨.undefined, d.flags, true⟩ else ⟨.uninitialized, d.flags, false⟩

/-- The declared names that answer to the reference, the one to be preferred first. -/
def Multiname.keys (m : Multiname) : List QualifiedName :=
  if m.isQualified then m.namespaces.map fun ns => ⟨some ns, m.name⟩ else [⟨none, m.name⟩]

abbrev Scope := Std.ExtHashMap QualifiedName Entry

namespace Scope

def ofTemplate (t : Template) : Scope :=
  t.slots.foldl (fun s d => s.insert d.name (.ofDeclaration d)) ∅

/-- The first of the reference's keys that is there, and what it holds. -/
def find? (s : Scope) (m : Multiname) : Option (QualifiedName × Entry) :=
  m.keys.findSome? fun q => s[q]?.map (q, ·)

def get? (s : Scope) (m : Multiname) : Option Value :=
  (s.find? m).map fun (_, e) => e.value

end Scope

structure Scopes where
  maps : List Scope
  maps_ne_nil : maps ≠ []
  policy : Policy

namespace Scopes

def ofBase (s : Scope) : Scopes := ⟨[s], by simp, .default⟩

/-- The first scope where the reference finds something: how far out it is, and what is found. -/
def locate (m : Multiname) : List Scope → Option (Nat × QualifiedName × Entry)
  | [] => none
  | s :: outer =>
    match s.find? m with
    | some hit => some (0, hit)
    | none => (locate m outer).map fun (n, hit) => (n + 1, hit)

def put (r : Scopes) (n : Nat) (q : QualifiedName) (e : Entry) : Scopes where
  maps := r.maps.modify n (·.insert q e)
  maps_ne_nil := by simpa using r.maps_ne_nil
  policy := r.policy

def push (r : Scopes) (t : Template) : Scopes where
  maps := .ofTemplate t :: r.maps
  maps_ne_nil := by simp
  policy := r.policy

def pop (r : Scopes) : Except EvalError (Scope × Scopes) :=
  match r.maps with
  | s :: t :: outer => .ok (s, { maps := t :: outer, maps_ne_nil := by simp, policy := r.policy })
  | _ => .error .frameUnderflow

def read (r : Scopes) (m : Multiname) (phase : Phase) (ambient : Option Ambient) : Reading :=
  match locate m r.maps, ambient with
  | some (_, _, e), _ =>
    if e.initialized then ⟨.ok e.value, none⟩
    else
      match r.policy.onUninitialized phase with
      | .reject => ⟨.error (.usedBeforeInitialization m), none⟩
      | .sentinel => ⟨.ok .uninitialized, none⟩
      | .undefined => ⟨.ok .undefined, none⟩
  | none, none => ⟨.error (.unresolvedBinding m), none⟩
  | none, some a =>
    match a.answer m with
    | .ok v => ⟨.ok v, some (a.lookup m)⟩
    | .error _ => ⟨.error (.unresolvedBinding m), some (a.lookup m)⟩

def write (r : Scopes) (m : Multiname) (v : Value) (declares : Bool) : Except EvalError Scopes :=
  match locate m r.maps with
  | some (n, q, e) =>
    if e.flags.immutable && e.initialized then .error (.immutableBinding q)
    else .ok (r.put n q ⟨v, e.flags, true⟩)
  | none =>
    if declares then .ok (r.put 0 m.declarationName ⟨v, .none, true⟩)
    else .error (.unresolvedBinding m)

def define (r : Scopes) (q : QualifiedName) (v : Value) (flags : SlotFlags) : Scopes :=
  r.put 0 q ⟨v, flags, true⟩

def defineGlobal (r : Scopes) (q : QualifiedName) (v : Value) (flags : SlotFlags) : Scopes :=
  r.put (r.maps.length - 1) q ⟨v, flags, true⟩

def withPolicy (r : Scopes) (policy : Policy) : Scopes := { r with policy }

def distance? (r : Scopes) (m : Multiname) : Option Nat :=
  (locate m r.maps).map fun (n, _) => n

def depth (r : Scopes) : Nat := r.maps.length

def innermost (r : Scopes) : Scope := r.maps.head r.maps_ne_nil

def base (r : Scopes) : Scope := r.maps.getLast r.maps_ne_nil

end Scopes

/-! ## Calls -/

abbrev AcceptedTemplate := { t : Template // ∃ a n, (Arena.push a t).1 = .ok n }

/-- What an environment is asked for, or asked to do. -/
inductive Call where
  | push (id : UInt16) (t : AcceptedTemplate)
  | pop
  | read (m : Multiname) (phase : Phase) (ambient : Option Ambient)
  | write (m : Multiname) (v : Value) (declares : Bool)
  | define (q : QualifiedName) (v : Value) (flags : SlotFlags)
  | defineGlobal (q : QualifiedName) (v : Value) (flags : SlotFlags)
  | policy (policy : Policy)
  | distance (m : Multiname)
  | depth
  | innermost (m : Multiname)
  | base (m : Multiname)

inductive Answer where
  | done
  | failed (e : EvalError)
  | reading (r : Reading)
  | number (n : Option Nat)
  | value (v : Option Value)
  /-- A scope that was left, as far as it can be looked into. -/
  | scope (get? : Multiname → Option Value)

def Call.answers (answer : σ → Call → Answer × σ) : σ → List Call → List Answer
  | _, [] => []
  | s, c :: calls => (answer s c).1 :: answers answer (answer s c).2 calls

def Environment.answer (env : Environment) : Call → Answer × Environment
  | .push id t => (.done, env.push id t)
  | .pop =>
    match env.pop with
    | .error e => (.failed e, env)
    | .ok (f, env) => (.scope f.get?, env)
  | .read m phase ambient => (.reading (env.read m phase ambient), env)
  | .write m v declares =>
    match env.write m v declares with
    | .error e => (.failed e, env)
    | .ok env => (.done, env)
  | .define q v flags => (.done, env.define q v flags)
  | .defineGlobal q v flags => (.done, env.defineGlobal q v flags)
  | .policy policy => (.done, env.withPolicy policy)
  | .distance m => (.number (env.distance? m), env)
  | .depth => (.number env.depth, env)
  | .innermost m => (.value (env.innermost.get? m), env)
  | .base m => (.value (env.base.get? m), env)

def Scopes.answer (r : Scopes) : Call → Answer × Scopes
  | .push _ t => (.done, r.push t)
  | .pop =>
    match r.pop with
    | .error e => (.failed e, r)
    | .ok (s, r) => (.scope s.get?, r)
  | .read m phase ambient => (.reading (r.read m phase ambient), r)
  | .write m v declares =>
    match r.write m v declares with
    | .error e => (.failed e, r)
    | .ok r => (.done, r)
  | .define q v flags => (.done, r.define q v flags)
  | .defineGlobal q v flags => (.done, r.defineGlobal q v flags)
  | .policy policy => (.done, r.withPolicy policy)
  | .distance m => (.number (r.distance? m), r)
  | .depth => (.number r.depth, r)
  | .innermost m => (.value (r.innermost.get? m), r)
  | .base m => (.value (r.base.get? m), r)

/-- A frame at the base of an environment: an empty one, or that of a template. -/
inductive Base where
  | empty
  | ofTemplate (id : UInt16) (t : AcceptedTemplate)

def Base.frame : Base → Frame
  | empty => .empty
  | ofTemplate id t => .instantiate id t

def Base.scope : Base → Scope
  | empty => ∅
  | ofTemplate _ t => .ofTemplate t

end ScopeMachine
