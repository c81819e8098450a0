import ScopeMachine.Proofs.Environment.Immutability
import ScopeMachine.Proofs.Machine.Stepping

/-!
# What machines do to their environments

Code reaches its environment through five instructions, each of which does one action to it
(`execute_acts`). So a session in which the host does not reach into the environment leaves the one
that the actions of its steps leave (`env_after`), and what is known of actions is known of machines:
`immutable_slots_are_written_once`.
-/

namespace ScopeMachine

open Instruction

/-- What the instruction does to the environment, if its index is in its table and it has a value to
write. -/
def Context.action? (c : Context) (s : State) : Instruction → Option Action
  | .lexicalRead n => do
    let m ← (c.unit.multinames.get n).toOption
    return .read m c.phase c.ambient
  | .lexicalWrite n => do
    let m ← (c.unit.multinames.get n).toOption
    s.stack.top?.map (.write m · true)
  | .lexicalAssign n => do
    let m ← (c.unit.multinames.get n).toOption
    s.stack.top?.map (.write m · false)
  | .pushFrame n => do
    let t ← (c.unit.templates.get n).toOption
    return .push n t
  | .popFrame => some .pop
  -- a dot read asks its host, not the scopes
  | .constant _ | .pop | .multiname _ | .dotRead _ | .ret => none

/-- The effect leaves the environment that the action leaves, and fails with the action. -/
structure Effect.Acts (effect : Effect) (env : Environment) (action : Option Action) : Prop where
  env_eq : effect.state.env = env.after action.toList
  fails : ∀ a e, action = some a → (env.act a).1 = .error e → effect.result = .error e

/-! ## Instructions -/

theorem Effect.Acts.nothing {effect : Effect} (h : effect.state.env = env) :
    effect.Acts env none :=
  ⟨h, by simp⟩

theorem Effect.Acts.of_change {change : Except EvalError Unit × State} {lookup : Option Lookup}
    (hresult : change.1 = (env.act a).1) (henv : change.2.env = (env.act a).2) :
    (Effect.ofChange change lookup).Acts env (some a) where
  env_eq := henv
  fails := by
    rintro _ e ⟨⟩ he
    rw [ofChange_result_eq_error, hresult, he]

namespace State

@[simp] theorem env_push (s : State) (v : Value) : (s.push v).2.env = s.env := by
  unfold push
  split <;> rfl

@[simp] theorem env_drop (s : State) (pc : Nat) : (s.drop pc).2.env = s.env := by
  unfold drop
  split <;> rfl

@[simp] theorem env_replaceTop (s : State) (pc : Nat) (v : Value) :
    (s.replaceTop pc v).2.env = s.env := by
  have hdrop := s.env_drop pc
  unfold replaceTop
  split
  next hs => simpa [hs] using hdrop
  next hs => simpa [hs] using hdrop

@[simp] theorem env_takeResult (s : State) : s.takeResult.2.env = s.env := by
  unfold takeResult
  split <;> rfl

theorem writeTop_acts (s : State) (pc : Nat) (m : Multiname) (declares : Bool) :
    (Effect.ofChange (s.writeTop pc m declares) none).Acts s.env
      (s.stack.top?.map (.write m · declares)) := by
  unfold writeTop
  cases s.stack.top? with
  | none => exact .nothing rfl
  | some v =>
    refine .of_change ?_ ?_
    all_goals
      simp only [Environment.act]
      cases s.env.write m v declares <;> rfl

theorem leave_acts (s : State) : (Effect.ofChange s.leave none).Acts s.env (some .pop) := by
  unfold leave
  refine .of_change ?_ ?_
  all_goals
    simp only [Environment.act]
    cases s.env.pop <;> rfl

end State

namespace Context

theorem lexicalRead_acts (c : Context) (m : Multiname) (s : State) :
    (c.lexicalRead m s).Acts s.env (some (.read m c.phase c.ambient)) := by
  simp only [lexicalRead]
  refine ⟨?_, ?_⟩
  · split
    · rfl
    · exact s.env_push _
  · rintro a e ⟨⟩ he
    simp only [Environment.act] at he
    split
    next hread =>
      rw [hread] at he
      cases he
      rfl
    next hread =>
      rw [hread] at he
      cases he

theorem env_dotRead (c : Context) (pc : Nat) (m : Multiname) (s : State) :
    (c.dotRead pc m s).state.env = s.env := by
  unfold dotRead
  split
  · rfl
  split
  · rfl
  split
  · rfl
  · exact s.env_replaceTop ..

theorem withMultiname_acts {c : Context} {s : State} {effect : Multiname → Effect}
    {action : Multiname → Option Action} (h : ∀ m, (effect m).Acts s.env (action m)) :
    (c.withMultiname n s effect).Acts s.env
      ((c.unit.multinames.get n).toOption.bind action) := by
  unfold withMultiname
  cases c.unit.multinames.get n with
  | error e => exact .nothing rfl
  | ok m => exact h m

theorem execute_acts (c : Context) (pc : Nat) (i : Instruction) (s : State) :
    (c.execute pc i s).Acts s.env (c.action? s i) := by
  -- writes and scopes are actions; nothing else that is done touches the environment
  cases i with
  | constant n =>
    simp only [execute]
    split
    · exact .nothing rfl
    · exact .nothing (s.env_push _)
  | pop => exact .nothing (s.env_drop pc)
  | multiname n =>
    simp only [execute, withMultiname]
    split
    · exact .nothing rfl
    · exact .nothing (s.env_push _)
  | dotRead n =>
    simp only [execute, withMultiname]
    split
    · exact .nothing rfl
    · exact .nothing (c.env_dotRead ..)
  | lexicalRead n => exact withMultiname_acts fun m => c.lexicalRead_acts m s
  | lexicalWrite n => exact withMultiname_acts fun m => s.writeTop_acts pc m true
  | lexicalAssign n => exact withMultiname_acts fun m => s.writeTop_acts pc m false
  | pushFrame n =>
    simp only [execute, action?]
    cases c.unit.templates.get n with
    | error e => exact .nothing rfl
    | ok t => exact ⟨rfl, by rintro a e ⟨⟩ ⟨⟩⟩
  | popFrame => exact s.leave_acts
  | ret => exact .nothing s.env_takeResult

theorem action?_isDefine {c : Context} (h : c.action? s i = some a) : a.isDefine = false := by
  cases i <;> simp only [action?, reduceCtorEq, bind, Option.bind_eq_some_iff, Option.some.injEq,
    pure] at h
  · obtain ⟨_, -, rfl⟩ := h
    rfl
  · obtain ⟨_, -, h⟩ := h
    obtain ⟨_, -, rfl⟩ := Option.map_eq_some_iff.mp h
    rfl
  · obtain ⟨_, -, h⟩ := h
    obtain ⟨_, -, rfl⟩ := Option.map_eq_some_iff.mp h
    rfl
  · obtain ⟨_, -, rfl⟩ := h
    rfl
  · subst h
    rfl

end Context

/-! ## Steps, runs and sessions -/

namespace Machine

variable {m : Machine}

def action? (m : Machine) : Option Action :=
  if m.isInterrupted then none
  else do
    let i ← (decodeAt m.unit.code m.pc).toOption
    m.toContext.action? m.toState i

def runActions (w : Course) (m : Machine) : List Action :=
  (m.amid (w 0)).action?.toList ++
    match _ : (m.amid (w 0)).step with
    | (.ok .proceed, after) => after.runActions w.later
    | _ => []
  termination_by m.unit.code.size - m.pc
  decreasing_by
    have stepped : (m.amid (w 0)).step = (.ok .proceed, after) := by assumption
    have ⟨inside, forward, same⟩ := pc_lt_of_step stepped
    simp only [toContext_amid, Context.unit_amid, pc_amid] at inside forward same
    rw [same]
    omega

def operationActions (m : Machine) : Operation → List Action
  | .step => m.action?.toList
  | .run w => m.runActions w
  | .rewind | .phase _ | .event _ | .env _ => []

/-- What code does to the environment in a session. -/
def actions : Machine → List Operation → List Action
  | _, [] => []
  | m, op :: ops => m.operationActions op ++ (m.operate op).actions ops

theorem step_acts (m : Machine) :
    m.step.2.env = m.env.after m.action?.toList ∧
      ∀ a e, m.action? = some a → (m.env.act a).1 = .error e → m.step.1 = .error e := by
  unfold step action?
  by_cases hq : m.isInterrupted
  · simp [hq, Environment.after]
  rw [if_neg hq, if_neg hq]
  cases hi : decodeAt m.unit.code m.pc with
  | error e =>
    refine ⟨?_, by rintro a e ⟨⟩⟩
    split <;> rfl
  | ok i =>
    -- what is decoded stands within the code
    have hfits := decodeAt_fits hi
    have hin : m.pc < m.unit.code.size := by
      have := i.width_pos
      omega
    obtain ⟨henv, hfails⟩ := m.toContext.execute_acts m.pc i m.toState
    rw [if_pos hin, toState_commit, result_commit]
    exact ⟨henv, hfails⟩

theorem runActions_eq (w : Course) (m : Machine) :
    m.runActions w = (m.amid (w 0)).action?.toList ++
      match (m.amid (w 0)).step with
      | (.ok .proceed, after) => after.runActions w.later
      | _ => [] := by
  rw [runActions]
  split <;> simp_all

theorem env_runAmid (w : Course) (m : Machine) :
    (m.runAmid w).2.env = m.env.after (m.runActions w) := by
  have hstep (w : Course) (m : Machine) :
      (m.amid (w 0)).step.2.env = m.env.after (m.amid (w 0)).action?.toList := by
    rw [(m.amid (w 0)).step_acts.1, toState_amid]
  fun_induction runAmid w m with
  | case1 w m e after hs | case2 w m v after hs =>
    rw [runActions_eq, hs, List.append_nil, ← hstep, hs]
  | case3 w m after hs ih => rw [runActions_eq, hs, Environment.after_append, ← hstep, hs, ih]

/-- Unless the host reaches into it, the environment after a session is the one that its actions
leave. -/
theorem env_after (ops : List Operation) (hops : ∀ change, .env change ∉ ops) :
    (m.after ops).env = m.env.after (m.actions ops) := by
  induction ops generalizing m with
  | nil => rfl
  | cons op ops ih =>
    have hop : (m.operate op).env = m.env.after (m.operationActions op) := by
      cases op with
      | step => exact m.step_acts.1
      | run w => exact m.env_runAmid w
      | rewind => rfl
      | phase phase => rfl
      | event e => exact congrArg State.env (m.toState_amid [e])
      | env change => exact absurd List.mem_cons_self (hops change)
    have hrest := ih (m := m.operate op) fun change h => hops change (List.mem_cons_of_mem op h)
    rw [actions, Environment.after_append, ← hop]
    exact hrest

theorem action?_isDefine (h : a ∈ m.action?.toList) : a.isDefine = false := by
  rw [Option.mem_toList, action?] at h
  split at h
  · cases h
  · obtain ⟨i, -, hi⟩ := Option.bind_eq_some_iff.mp h
    exact Context.action?_isDefine hi

theorem runActions_isDefine (h : a ∈ m.runActions w) : a.isDefine = false := by
  fun_induction runAmid w m with
  | case1 w m e after hs | case2 w m v after hs =>
    rw [runActions_eq, hs, List.append_nil] at h
    exact action?_isDefine h
  | case3 w m after hs ih =>
    rw [runActions_eq, hs, List.mem_append] at h
    rcases h with h | h
    · exact action?_isDefine h
    · exact ih h

theorem actions_isDefine (h : a ∈ m.actions ops) : a.isDefine = false := by
  induction ops generalizing m with
  | nil => cases h
  | cons op ops ih =>
    rcases List.mem_append.mp h with h | h
    · cases op with
      | step => exact action?_isDefine h
      | run w => exact runActions_isDefine h
      | _ => cases h
    · exact ih h

end Machine

/-- Whatever scopes are entered and left and whatever is read and written through whatever
references, declaring or not: as long as its frame stays, an immutable slot takes one write at most,
and none if it was initialized before or is hoisted; once it is initialized it holds what it holds,
and further writes that resolve to it are refused with an error and do nothing. The same goes for
what code does in the steps and runs of a machine, where a step fails with what it does. -/
theorem immutable_slots_are_written_once :
    (∀ (env : Environment) actions, (∀ a ∈ actions, a.isDefine = false) →
      env.KeepsImmutable actions) ∧
    ∀ m : Machine,
      (∀ a e, m.action? = some a → (m.env.act a).1 = .error e → m.step.1 = .error e) ∧
      ∀ ops, (∀ change, .env change ∉ ops) →
        (m.after ops).env = m.env.after (m.actions ops) ∧ m.env.KeepsImmutable (m.actions ops) := by
  refine ⟨fun env actions h => Environment.keepsImmutable h, fun m => ⟨m.step_acts.2, ?_⟩⟩
  intro ops hops
  have hkeeps : m.env.KeepsImmutable (m.actions ops) :=
    Environment.keepsImmutable fun a ha => Machine.actions_isDefine ha
  exact ⟨Machine.env_after ops hops, hkeeps⟩

/-- The stand-in for a missing value is a first value like any other. -/
theorem immutable_slot_written_with_sentinel :
    let d : Declaration := ⟨⟨none, ⟨1⟩⟩, ⟨false, true⟩⟩
    let first : Action := .write ⟨⟨1⟩, []⟩ .uninitialized true
    let second : Action := .write ⟨⟨1⟩, []⟩ .undefined true
    let env := (Environment.ofBase .empty).push 0 ⟨none, [d]⟩
    env.WriteOnce ⟨1, 0⟩ (.ofDeclaration d) [first, second] ∧
      env.writes ⟨1, 0⟩ [first, second] = [.uninitialized] ∧
      (env.after [first]).act second = (.error (.immutableBinding d.name), env.after [first]) := by
  intro d first second env
  have hkeeps := immutable_slots_are_written_once.1 env [first, second] (by decide)
  have honce := hkeeps.writeOnce [] [first, second] [] ⟨1, 0⟩ (.ofDeclaration d) rfl (by cbv)
    (by decide) (by cbv)
  have hnow : (env.after [first]).slot? ⟨1, 0⟩ = some ⟨d.name, .uninitialized, d.flags, true⟩ := by
    cbv
  have hsettled := honce.settles [first] [second] _ rfl hnow rfl
  have hplace : (env.after [first]).place? ⟨⟨1⟩, []⟩ = some ⟨1, 0⟩ := by cbv
  exact ⟨honce, by cbv, hsettled.refuses [] [second] rfl _ _ _ hplace⟩

end ScopeMachine
