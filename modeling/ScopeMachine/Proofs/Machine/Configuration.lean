import Mathlib.Data.List.Induction
import Mathlib.Data.List.Permutation
import ScopeMachine.Proofs.Code.Assembly
import ScopeMachine.Proofs.Machine.Boundaries
import ScopeMachine.Proofs.Machine.StepByStep

/-!
# What settings come to

Of each kind of setting the last one counts, wherever the others stand (`settings_by_kind`). There
is one exception: where no host was set for property reads, they go to the host of the first
receiver, also if another receiver takes its place for lexical reads.
-/

namespace ScopeMachine

open Instruction

namespace Setting

inductive Kind where
  | phase
  | policy
  | env
  | ambient
  | resolver
  | interrupt
  | stackLimit
  deriving DecidableEq, Repr

abbrev Kind.Value : Kind → Type
  | phase => Phase
  | policy => Policy
  | env => Environment
  | ambient => Ambient
  | resolver => Host
  | interrupt => Interrupt
  | stackLimit => Nat

def kind : Setting → Kind
  | phase _ => .phase
  | policy _ => .policy
  | env _ => .env
  | ambient _ => .ambient
  | resolver _ => .resolver
  | interrupt _ => .interrupt
  | stackLimit _ => .stackLimit

def given? : (k : Kind) → Setting → Option k.Value
  | .phase, phase v => some v
  | .policy, policy v => some v
  | .env, env v => some v
  | .ambient, ambient v => some v
  | .resolver, resolver v => some v
  | .interrupt, interrupt v => some v
  | .stackLimit, stackLimit v => some v
  | _, _ => none

theorem given?_isSome_iff {s : Setting} : (s.given? k).isSome ↔ s.kind = k := by
  cases s <;> cases k <;> simp [given?, kind]

theorem given?_of_ne {s : Setting} (h : s.kind ≠ k) : s.given? k = none :=
  Option.not_isSome_iff_eq_none.mp (mt given?_isSome_iff.mp h)

end Setting

namespace Settings

open Setting

def given (k : Kind) (settings : List Setting) : List k.Value :=
  settings.filterMap (given? k)

def first? (k : Kind) (settings : List Setting) : Option k.Value :=
  (given k settings).head?

def last? (k : Kind) (settings : List Setting) : Option k.Value :=
  (given k settings).getLast?

section Kinds

variable {s : Setting} {front rest : List Setting}

@[simp]
theorem first?_nil : first? k [] = none :=
  rfl

@[simp]
theorem last?_nil : last? k [] = none :=
  rfl

@[simp]
theorem first?_cons : first? k (s :: rest) = (s.given? k <|> first? k rest) := by
  unfold first? given
  cases h : s.given? k <;> simp [h]

@[simp]
theorem last?_cons : last? k (s :: rest) = (last? k rest <|> s.given? k) := by
  unfold last? given
  cases h : s.given? k <;> simp [h, List.getLast?_cons]

@[simp]
theorem first?_append : first? k (front ++ rest) = (first? k front <|> first? k rest) := by
  simp [first?, given]

@[simp]
theorem last?_append : last? k (front ++ rest) = (last? k rest <|> last? k front) := by
  simp [last?, given]

theorem last?_drop (h : (last? s.kind rest).isSome) :
    last? k (front ++ s :: rest) = last? k (front ++ rest) := by
  by_cases hk : s.kind = k
  · subst hk
    obtain ⟨v, hv⟩ := Option.isSome_iff_exists.mp h
    simp [hv]
  · simp [given?_of_ne hk]

end Kinds

/-- The settings that one value at most of each kind makes, where the host `substitute` answers
property reads if none was set for them. -/
def ofKinds (value : (k : Kind) → Option k.Value) (substitute : Option Host) : Settings where
  phase := (value .phase).getD .default
  policy := value .policy
  env := value .env
  ambient := value .ambient
  resolver := value .resolver <|> substitute
  interrupt := value .interrupt
  stackLimit := (value .stackLimit).getD OperandStack.defaultLimit

theorem ofKinds_eq_iff {value : (k : Kind) → Option k.Value} :
    ofKinds value a = ofKinds value b ↔ (value .resolver).isSome ∨ a = b := by
  cases h : value .resolver <;> simp [ofKinds, h]

/-- Of every kind the last setting counts; and the first receiver brings the host that answers
property reads, if none was set for them. -/
theorem ofList_eq (settings : List Setting) :
    ofList settings =
      ofKinds (last? · settings) ((first? .ambient settings).map (·.host)) := by
  -- on the end of the list: the settings before the last one are those of a shorter list
  induction settings using List.reverseRecOn with
  | nil => rfl
  | append_singleton settings s ih =>
    have happly : ofList (settings ++ [s]) = (ofList settings).apply s := by simp [ofList]
    rw [happly, ih]
    cases s with
    | ambient a =>
      -- a host is taken over only if there is none, from an earlier receiver or of its own
      cases hlast : last? .resolver settings <;> cases hfirst : first? .ambient settings <;>
        simp [apply, ofKinds, given?, hlast, hfirst]
    | _ => simp [apply, ofKinds, given?]

/-- A setting in front of another one of its kind can be left out, unless it is the receiver whose
host answers property reads. -/
theorem ofList_drop {s : Setting} {front rest : List Setting}
    (h : (last? s.kind rest).isSome) :
    ofList (front ++ s :: rest) = ofList (front ++ rest) ↔
      ∀ a, s = .ambient a → (last? .resolver (front ++ rest)).isSome ∨
        (first? .ambient front).isSome ∨ (first? .ambient rest).map (·.host) = some a.host := by
  have hlast : (last? · (front ++ s :: rest)) = (last? · (front ++ rest)) :=
    funext fun k => last?_drop h
  -- what was last of its kind is that without `s`, so only the first receiver may differ
  rw [ofList_eq, ofList_eq, hlast, ofKinds_eq_iff]
  by_cases hs : s.kind = .ambient
  · cases s with
    | ambient a => cases hfirst : first? .ambient front <;> simp [given?, hfirst, eq_comm (a := some a.host)]
    | _ => cases hs
  · have hno : ∀ a, s ≠ .ambient a := by
      rintro a rfl
      exact hs rfl
    simp [given?_of_ne hs, hno]

end Settings

namespace Machine

open Setting Settings

theorem environment_of_ofSettings {s : Settings} (h : ofSettings u s = .ok m) :
    ∃ env, s.environment u = .ok env ∧ m.env = (s.policy.map env.withPolicy).getD env ∧
      m.lookups = [] := by
  unfold ofSettings at h
  split at h
  · cases h
  · next env henv =>
    cases h
    refine ⟨env, henv, ?_, rfl⟩
    cases s.policy <;> rfl

/-- The machine is made of the last setting of each kind; a policy holds for the environment wherever
the two stand. Property reads go to the host that was set for them last, and without one to that of
the first receiver. -/
structure MadeOf (u : CodeUnit) (settings : List Setting) (env : Environment) (m : Machine) :
    Prop where
  given : last? .env settings = some env ∨
    last? .env settings = none ∧ Environment.ofUnit u = .ok env
  env : m.env = ((last? .policy settings).map env.withPolicy).getD env
  unit : m.unit = u
  phase : m.phase = (last? .phase settings).getD .default
  ambient : m.ambient = last? .ambient settings
  resolver : m.resolver = (last? .resolver settings <|> (first? .ambient settings).map (·.host))
  stack : m.stack = .empty ((last? .stackLimit settings).getD OperandStack.defaultLimit)
  interrupt : m.interrupt = last? .interrupt settings
  pc : m.pc = 0
  lookups : m.lookups = []

structure DecidedByKind (u : CodeUnit) (settings : List Setting) : Prop where
  made : ∃ m env, ofSettings u (.ofList settings) = .ok m ∧ MadeOf u settings env m
  /-- The last of each kind decide alone only where no host of an earlier receiver is left to answer
  property reads. -/
  last_iff : ofList settings = ofKinds (last? · settings) ((last? .ambient settings).map (·.host)) ↔
    (last? .resolver settings).isSome ∨
      (first? .ambient settings).map (·.host) = (last? .ambient settings).map (·.host)
  /-- Settings of different kinds can be put in another order. -/
  reordered : ∀ others, (∀ k, given k others = given k settings) →
    ofList others = ofList settings
  /-- One with another one of its kind behind it can be left out, but for the receiver whose host
  answers property reads. -/
  dropped_iff : ∀ front s rest, settings = front ++ s :: rest → (last? s.kind rest).isSome →
    (ofList settings = ofList (front ++ rest) ↔
      ∀ a, s = .ambient a → (last? .resolver (front ++ rest)).isSome ∨
        (first? .ambient front).isSome ∨ (first? .ambient rest).map (·.host) = some a.host)

theorem exists_madeOf (u : CodeUnit) (settings : List Setting) :
    ∃ m env, ofSettings u (.ofList settings) = .ok m ∧ MadeOf u settings env m := by
  obtain ⟨m, hok, hcontext, hpc, hstack, hinterrupt⟩ := ofSettings_eq_ok u (.ofList settings)
  obtain ⟨env, henv, hpolicy, hlookups⟩ := environment_of_ofSettings hok
  rw [ofList_eq] at henv hpolicy hcontext hstack hinterrupt
  have hgiven : last? .env settings = some env ∨
      last? .env settings = none ∧ Environment.ofUnit u = .ok env := by
    cases hlast : last? .env settings <;> simpa [environment, ofKinds, hlast] using henv
  exact ⟨m, env, hok,
    { given := hgiven
      env := hpolicy
      unit := congrArg Context.unit hcontext
      phase := congrArg Context.phase hcontext
      ambient := congrArg Context.ambient hcontext
      resolver := congrArg Context.resolver hcontext
      stack := hstack
      interrupt := hinterrupt
      pc := hpc
      lookups := hlookups }⟩

/-- For every unit and any number of settings, in any order, there is a machine, and of each kind of
setting the last one decides, but for the receivers: the host of the first one answers property
reads, if no host was set for them. -/
theorem settings_by_kind (u : CodeUnit) (settings : List Setting) : DecidedByKind u settings where
  made := exists_madeOf u settings
  last_iff := by rw [ofList_eq, ofKinds_eq_iff]
  reordered others h := by
    have hlast : (last? · others) = (last? · settings) := by
      funext k
      simp [last?, h]
    rw [ofList_eq, ofList_eq, hlast, first?, first?, h]
  dropped_iff := by
    rintro front s rest rfl h
    exact ofList_drop h

/-- Two receivers are set one after the other: the lexical read is the later one's and the property
read the earlier host's. Where the later one is set alone, its host answers both. -/
theorem earlier_receiver_answers_reads :
    let host (name : String) (n : Int64) : Host :=
      ⟨name, fun base _ => .ok (if base = .object 1 then .object 2 else .int n), fun _ _ => false⟩
    let first : Setting := .ambient ⟨.object 1, host "first" 1⟩
    let second : Setting := .ambient ⟨.object 1, host "second" 2⟩
    ∃ u both later, u.code = (assemble [.lexicalRead 0, .dotRead 1]).toArray ∧
      ofSettings u (.ofList [first, second]) = .ok both ∧
      ofSettings u (.ofList [second]) = .ok later ∧
      both.ambient.map (·.host.name) = some "second" ∧ both.run.1 = .ok (.int 1) ∧
      later.run.1 = .ok (.int 2) := by
  intro host first second
  let base := Interner.new.intern "base"
  let x := base.2.intern "x"
  obtain ⟨templates, hbase, hd⟩ := Draft.exists_templates x.2
    ⟨#[.unqualified base.1, .unqualified x.1], by decide⟩ #[] [.lexicalRead 0, .dotRead 1] (by decide)
    rfl
  let u : CodeUnit := ⟨_, hd⟩
  let env : Environment := .ofBase (.instantiate 0 ⟨none, []⟩)
  have henv : Environment.ofUnit u = .ok env := by simp [Environment.ofUnit, u, hbase, env]
  let start (ambient : Ambient) (resolver : Host) : Machine :=
    ⟨⟨u, .default, some ambient, some resolver⟩, ⟨.empty OperandStack.defaultLimit, env⟩, 0, none, []⟩
  let both := start ⟨.object 1, host "second" 2⟩ (host "first" 1)
  let later := start ⟨.object 1, host "second" 2⟩ (host "second" 2)
  have hboth : ofSettings u (.ofList [first, second]) = .ok both := by
    simp [ofSettings, environment, ofList, apply, Settings.default, henv, first, second]
    rfl
  have hlater : ofSettings u (.ofList [second]) = .ok later := by
    simp [ofSettings, environment, ofList, apply, Settings.default, henv, second]
    rfl
  -- both runs take the two reads and then find the end of the code
  have hends {m : Machine} {n : Int64} (hread : m.outcomeAmid .quiet 0 = .ok .proceed)
      (hdot : m.outcomeAmid .quiet 1 = .ok .proceed)
      (hend : m.outcomeAmid .quiet 2 = (Except.ok (Value.int n)).map .finished) :
      m.run.1 = .ok (.int n) := by
    have hgo : ∀ j < 2, m.outcomeAmid .quiet j = .ok .proceed :=
      Nat.forall_lt_succ_right.mpr ⟨Nat.forall_lt_succ_right.mpr ⟨by simp, hread⟩, hdot⟩
    rw [← runAmid_quiet, runAmid_of_steps hgo hend]
  exact ⟨u, both, later, rfl, hboth, hlater, rfl, hends (by cbv) (by cbv) (by cbv),
    hends (by cbv) (by cbv) (by cbv)⟩

end Machine

end ScopeMachine
