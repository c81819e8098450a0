import ScopeMachine.Proofs.Code.Acceptance
import ScopeMachine.Proofs.Machine.Recovery

/-!
# Runs as evaluations of programs

`evaluate` performs the instructions of a list from left to right on a scene, the operands and the
environment; it knows neither bytes nor positions. A run of a unit that was assembled from the list
comes to the same, and its positions are the bytes of the instructions it has passed:
`run_eq_evaluate`.
-/

namespace ScopeMachine

open Instruction

/-! ## Scenes -/

/-- What the instructions of a program work on: the operands, the top one first, and the scopes. -/
structure Scene where
  operands : List Value
  env : Environment

inductive Trouble where
  /-- It has no operand to work on. -/
  | noOperand
  | other (e : EvalError)

def Trouble.at (pc : Nat) : Trouble → EvalError
  | noOperand => .operandStackUnderflow pc
  | other e => e

namespace Scene

def result (s : Scene) : Value := s.operands.head?.getD .undefined

def push (s : Scene) (limit : Nat) (v : Value) : Except Trouble Scene :=
  if s.operands.length < limit then .ok { s with operands := v :: s.operands }
  else .error (.other (.operandStackOverflow limit))

def top (s : Scene) : Except Trouble (Value × List Value) :=
  match s.operands with
  | [] => .error .noOperand
  | v :: rest => .ok (v, rest)

def write (s : Scene) (m : Multiname) (declares : Bool) : Except Trouble Scene := do
  let (v, _) ← s.top
  let env ← (s.env.write m v declares).mapError .other
  return { s with env }

end Scene

def Trouble.entry (x : Except LoadError α) : Except Trouble α :=
  x.mapError fun e => .other (.malformed e)

namespace Context

def property (c : Context) (base : Value) (m : Multiname) : Except Trouble Value :=
  match c.resolver with
  | none => .error (.other (.unresolvedBinding m))
  | some host => (host.answer base m).mapError fun _ => .other (.unresolvedBinding m)

def perform (c : Context) (limit : Nat) (s : Scene) : Instruction → Except Trouble Scene
  | .constant n => do
    let k ← Trouble.entry (c.unit.constant n)
    s.push limit (.ofConstant c.unit.interner k)
  | .pop => do
    let (_, operands) ← s.top
    return { s with operands }
  | .multiname n => do
    let _ ← Trouble.entry (c.unit.multinames.get n)
    s.push limit (.multiname n)
  | .dotRead n => do
    let m ← Trouble.entry (c.unit.multinames.get n)
    let (base, rest) ← s.top
    let v ← c.property base m
    return { s with operands := v :: rest }
  | .lexicalRead n => do
    let m ← Trouble.entry (c.unit.multinames.get n)
    let v ← (s.env.read m c.phase c.ambient).result.mapError .other
    s.push limit v
  | .lexicalWrite n => do
    let m ← Trouble.entry (c.unit.multinames.get n)
    s.write m true
  | .lexicalAssign n => do
    let m ← Trouble.entry (c.unit.multinames.get n)
    s.write m false
  | .pushFrame n => do
    let t ← Trouble.entry (c.unit.templates.get n)
    return { s with env := s.env.push n t }
  | .popFrame => do
    let (_, env) ← s.env.pop.mapError .other
    return { s with env }
  | .ret => return { s with operands := s.operands.tail }

end Context

structure Outcome where
  result : Except Trouble Value
  scene : Scene
  /-- The instructions in front of the one that was the last. -/
  passed : List Instruction

/-- Where a machine is left that runs the program from `start` in code that ends at `stop`: at the
end, or behind the instructions passed if the program failed. -/
def Outcome.position (o : Outcome) (start stop : Nat) : Nat :=
  match o.result with
  | .ok _ => stop
  | .error _ => start + span o.passed

/-- Performs the instructions from left to right, to the first return, to the first that cannot be
performed or to the end of the list. Events come between two instructions. -/
def Context.evaluate (limit : Nat) (w : Course) (c : Context) :
    List Instruction → Scene → Outcome
  | [], s => ⟨.ok s.result, s, []⟩
  | i :: p, s =>
    match (c.amid (w 0)).perform limit s i with
    | .error e => ⟨.error e, s, []⟩
    | .ok next =>
      if i = .ret then ⟨.ok s.result, next, []⟩
      else
        let o := evaluate limit w.later (c.amid (w 0)) p next
        { o with passed := i :: o.passed }

/-- The instructions passed are the front of the program, and behind them stands the one that could
not be performed. -/
theorem Context.evaluate_error (h : (evaluate limit w c p s).result = .error e) :
    ∃ i rest, p = (evaluate limit w c p s).passed ++ i :: rest := by
  fun_induction evaluate limit w c p s with
  | case1 => cases h
  | case2 w c i p s e' he => exact ⟨i, p, rfl⟩
  | case3 => cases h
  | case4 w c i p s next hi hret o ih =>
    obtain ⟨j, rest, hp⟩ := ih h
    exact ⟨j, rest, by simpa using hp⟩

/-! ## Instructions -/

def State.scene (s : State) : Scene := ⟨s.stack.values, s.env⟩

/-- The effect of an instruction at `pc` is what the scene says: the error, or the outcome and the
scene after it. -/
inductive Effect.Mirrors (s : State) (pc : Nat) (out : Step) (effect : Effect) :
    Except Trouble Scene → Prop
  | fails : effect.result = .error (e.at pc) → Mirrors s pc out effect (.error e)
  | works : effect.result = .ok out → effect.state.scene = next →
      effect.state.stack.limit = s.stack.limit → Mirrors s pc out effect (.ok next)

theorem Effect.Mirrors.without_lookup {effect : Effect} (h : effect.Mirrors s pc out r) :
    Effect.Mirrors s pc out ⟨effect.result, effect.state, none⟩ r := by
  cases h with
  | fails hr => exact .fails hr
  | works hr hscene hlimit => exact .works hr hscene hlimit

namespace State

theorem push_mirrors (s : State) (pc : Nat) (v : Value) (lookup : Option Lookup) :
    Effect.Mirrors s pc .proceed (.ofChange (s.push v) lookup) (s.scene.push s.stack.limit v) := by
  unfold Scene.push scene
  simp only [← s.stack.size_eq]
  split
  next hroom =>
    obtain ⟨stack, hpush⟩ := OperandStack.push_of_lt hroom v
    obtain ⟨hvalues, hlimit, -⟩ := OperandStack.push_eq_ok hpush
    refine .works ?_ ?_ ?_ <;>
      simp [Effect.ofChange, push, hpush, scene, hvalues, hlimit, Except.map]
  next hroom =>
    refine .fails ?_
    simp [Effect.ofChange, push, OperandStack.push, hroom, Except.map, Trouble.at]

theorem drop_mirrors (s : State) (pc : Nat) :
    Effect.Mirrors s pc .proceed (.ofChange (s.drop pc) none)
      (do let (_, operands) ← s.scene.top
          return { s.scene with operands }) := by
  unfold drop
  cases hpop : s.stack.pop pc with
  | error e =>
    obtain ⟨hnil, rfl⟩ := OperandStack.pop_eq_error hpop
    simp only [scene, Scene.top, hnil]
    exact .fails rfl
  | ok popped =>
    obtain ⟨hvalues, hlimit, -⟩ := OperandStack.pop_eq_ok hpop
    simp only [scene, Scene.top, hvalues]
    exact .works rfl rfl hlimit

theorem writeTop_mirrors (s : State) (pc : Nat) (m : Multiname) (declares : Bool) :
    Effect.Mirrors s pc .proceed (.ofChange (s.writeTop pc m declares) none)
      (s.scene.write m declares) := by
  unfold writeTop Scene.write Scene.top scene
  cases hvalues : s.stack.values with
  | nil =>
    simp only [OperandStack.top?, hvalues]
    exact .fails rfl
  | cons v rest =>
    simp only [OperandStack.top?, hvalues, List.head?_cons, bind, Except.bind]
    cases s.env.write m v declares with
    | error e => exact .fails rfl
    | ok env => exact .works rfl (by simp [scene, Effect.ofChange, hvalues]) rfl

theorem leave_mirrors (s : State) (pc : Nat) :
    Effect.Mirrors s pc .proceed (.ofChange s.leave none)
      (do let (_, env) ← s.scene.env.pop.mapError .other
          return { s.scene with env }) := by
  unfold leave
  cases hpop : s.env.pop with
  | error e =>
    simp only [scene, hpop]
    exact .fails rfl
  | ok popped =>
    simp only [scene, hpop]
    exact .works rfl rfl rfl

theorem takeResult_mirrors (s : State) (pc : Nat) :
    Effect.Mirrors s pc (.finished s.scene.result)
      ⟨.ok (.finished s.takeResult.1), s.takeResult.2, none⟩
      (.ok { s.scene with operands := s.scene.operands.tail }) := by
  unfold takeResult
  cases hpop : s.stack.pop 0 with
  | error e =>
    obtain ⟨hnil, -⟩ := OperandStack.pop_eq_error hpop
    exact .works (by simp [scene, Scene.result, hnil]) (by simp [scene, hnil]) rfl
  | ok popped =>
    obtain ⟨hvalues, hlimit, -⟩ := OperandStack.pop_eq_ok hpop
    exact .works (by simp [scene, Scene.result, hvalues]) (by simp [scene, hvalues]) hlimit

end State

namespace Context

variable {c : Context} {s : State}

theorem withMultiname_mirrors {effect : Multiname → Effect}
    {outcome : Multiname → Except Trouble Scene}
    (h : ∀ m, (effect m).Mirrors s pc .proceed (outcome m)) :
    (c.withMultiname n s effect).Mirrors s pc .proceed
      (do let m ← Trouble.entry (c.unit.multinames.get n)
          outcome m) := by
  unfold withMultiname
  cases hget : c.unit.multinames.get n with
  | error e => exact .fails rfl
  | ok m => exact h m

theorem dotRead_mirrors (hs : s.Fits) (pc : Nat) (m : Multiname) :
    (c.dotRead pc m s).Mirrors s pc .proceed
      (do let (base, rest) ← s.scene.top
          let v ← c.property base m
          return { s.scene with operands := v :: rest }) := by
  unfold dotRead
  cases htop : s.stack.top? with
  | none =>
    simp only [OperandStack.top?, List.head?_eq_none_iff] at htop
    simp only [State.scene, Scene.top, htop]
    exact .fails rfl
  | some base =>
    obtain ⟨rest, hvalues⟩ := List.head?_eq_some_iff.mp htop
    simp only [State.scene, Scene.top, hvalues, property, bind, Except.bind]
    cases c.resolver with
    | none => exact .fails rfl
    | some host =>
      cases hanswer : host.answer base m with
      | error e =>
        simp only [hanswer]
        exact .fails rfl
      | ok v =>
        -- the scene puts the property there without a look at the limit; the stack has the room
        -- of the base for it
        obtain ⟨stack, below, hok, hbase, hv, hlimit⟩ := hs.replaceTop_eq_ok htop pc v
        obtain ⟨-, rfl⟩ := List.cons.inj (hvalues.symm.trans hbase)
        simp only [hanswer, hok]
        exact .works rfl (by simp [State.scene, Effect.ofChange, hv]) hlimit

theorem lexicalRead_mirrors (pc : Nat) (m : Multiname) :
    (c.lexicalRead m s).Mirrors s pc .proceed
      (do let v ← (s.scene.env.read m c.phase c.ambient).result.mapError .other
          s.scene.push s.stack.limit v) := by
  simp only [lexicalRead, State.scene]
  cases hread : (s.env.read m c.phase c.ambient).result with
  | error e => exact .fails rfl
  | ok v => exact s.push_mirrors ..

/-- Each instruction does to the state what it does to the scene. -/
theorem execute_mirrors (hs : s.Fits) (pc : Nat) (i : Instruction) :
    (c.execute pc i s).Mirrors s pc (if i = .ret then .finished s.scene.result else .proceed)
      (c.perform s.stack.limit s.scene i) := by
  cases i with
  | constant n =>
    simp only [execute, perform]
    cases c.unit.constant n with
    | error e => exact .fails rfl
    | ok k => exact s.push_mirrors ..
  | pop => exact s.drop_mirrors pc
  | multiname n => exact withMultiname_mirrors fun _ => s.push_mirrors ..
  | dotRead n => exact withMultiname_mirrors fun m => dotRead_mirrors hs pc m
  | lexicalRead n => exact withMultiname_mirrors fun m => lexicalRead_mirrors pc m
  | lexicalWrite n => exact withMultiname_mirrors fun m => s.writeTop_mirrors pc m true
  | lexicalAssign n => exact withMultiname_mirrors fun m => s.writeTop_mirrors pc m false
  | pushFrame n =>
    simp only [execute, perform, Trouble.entry]
    cases c.unit.templates.get n with
    | error e => exact .fails rfl
    | ok t => exact .works rfl rfl rfl
  | popFrame => exact s.leave_mirrors pc
  | ret => exact s.takeResult_mirrors pc

end Context

/-! ## Runs -/

namespace Machine

variable {m : Machine}

theorem Between.step_nil (h : m.Between front []) (hflag : m.interrupt = none) :
    m.step = (.ok (.finished m.toState.scene.result), m) := by
  have hs := h.step_cases
  rw [isInterrupted_of_none hflag] at hs
  obtain ⟨hfalse, -⟩ | ⟨-, -, hs⟩ | ⟨i, rest, -, hfalse, -⟩ := hs
  · cases hfalse
  · exact hs
  · cases hfalse

/-- Without a flag, a step does to the state of the machine what its instruction does to the
scene. -/
theorem Between.step_mirrors (h : m.Between front (i :: back)) (hm : m.toState.Fits)
    (hflag : m.interrupt = none) :
    Effect.Mirrors m.toState m.pc (if i = .ret then .finished m.toState.scene.result else .proceed)
      ⟨m.step.1, m.step.2.toState, none⟩
      (m.toContext.perform m.stack.limit m.toState.scene i) := by
  have hs := h.step_cases
  rw [isInterrupted_of_none hflag] at hs
  obtain ⟨hfalse, -⟩ | ⟨-, hfalse, -⟩ | ⟨j, rest, -, heq, hs⟩ := hs
  · cases hfalse
  · cases hfalse
  obtain ⟨rfl, rfl⟩ := List.cons.inj heq
  rw [hs, result_commit, toState_commit]
  exact (Context.execute_mirrors hm m.pc i).without_lookup

theorem Between.step_of_trouble (h : m.Between front (i :: back)) (hm : m.toState.Fits)
    (hflag : m.interrupt = none)
    (hi : m.toContext.perform m.stack.limit m.toState.scene i = .error e) :
    ∃ after, m.step = (.error (e.at m.pc), after) ∧ after.toState = m.toState ∧
      after.pc = m.pc := by
  have hmirrors := h.step_mirrors hm hflag
  rw [hi] at hmirrors
  cases hmirrors with
  | fails hr =>
    obtain ⟨heq, -⟩ := step_failed hm hr
    have hstate := congrArg Machine.toState heq
    have hpc := congrArg Machine.pc heq
    exact ⟨_, Prod.ext hr rfl, hstate, hpc⟩

theorem Between.step_of_ret (h : m.Between front (.ret :: back)) (hm : m.toState.Fits)
    (hflag : m.interrupt = none)
    (hi : m.toContext.perform m.stack.limit m.toState.scene .ret = .ok next) :
    ∃ after, m.step = (.ok (.finished m.toState.scene.result), after) ∧
      after.toState.scene = next ∧ after.stack.limit = m.stack.limit ∧
      after.pc = m.unit.code.size := by
  have hmirrors := h.step_mirrors hm hflag
  rw [hi] at hmirrors
  cases hmirrors with
  | works hr hscene hlimit =>
    have hend := (h.step.2.2 _ hr).2
    rw [CodeUnit.span_program] at hend
    exact ⟨_, Prod.ext hr rfl, hscene, hlimit, hend⟩

theorem Between.step_of_performed (h : m.Between front (i :: back)) (hm : m.toState.Fits)
    (hflag : m.interrupt = none)
    (hi : m.toContext.perform m.stack.limit m.toState.scene i = .ok next) (hret : i ≠ .ret) :
    ∃ after, m.step = (.ok .proceed, after) ∧ after.toState.scene = next ∧
      after.stack.limit = m.stack.limit ∧ after.Between (front ++ [i]) back := by
  have hmirrors := h.step_mirrors hm hflag
  rw [hi, if_neg hret] at hmirrors
  cases hmirrors with
  | works hr hscene hlimit =>
    obtain ⟨j, rest, heq, hafter⟩ := h.step.2.1 hr
    obtain ⟨rfl, rfl⟩ := List.cons.inj heq
    exact ⟨_, Prod.ext hr rfl, hscene, hlimit, hafter⟩

theorem Between.runAmid (h : m.Between front back) (hm : m.toState.Fits)
    (hflag : m.interrupt = none) (w : Course) :
    let o := Context.evaluate m.stack.limit w m.toContext back m.toState.scene
    (m.runAmid w).1 = o.result.mapError (Trouble.at (m.pc + span o.passed)) ∧
      (m.runAmid w).2.toState.scene = o.scene ∧ (m.runAmid w).2.stack.limit = m.stack.limit ∧
      (m.runAmid w).2.pc = o.position m.pc m.unit.code.size := by
  -- on what is ahead; the position is no part of it, `Between` has it from what is behind
  induction back generalizing m front w with
  | nil =>
    have hs := (h.amid (w 0)).step_nil (interrupt_amid_of_none hflag _)
    have hend : m.pc = m.unit.code.size := by
      rw [h.2, ← m.unit.span_program, h.1, List.append_nil]
    rw [toState_amid] at hs
    rw [runAmid_eq, hs]
    refine ⟨rfl, ?_, ?_, ?_⟩
    · simp [Context.evaluate]
    · simp
    · simp [Context.evaluate, Outcome.position, hend]
  | cons i back ih =>
    have ha := h.amid (w 0)
    have hfits : (m.amid (w 0)).toState.Fits := fits_invariant.amid hm (w 0)
    have hnone := interrupt_amid_of_none hflag (w 0)
    rw [runAmid_eq, Context.evaluate]
    cases hi : (m.toContext.amid (w 0)).perform m.stack.limit m.toState.scene i with
    | error e =>
      obtain ⟨after, hs, hstate, hpc⟩ := ha.step_of_trouble hfits hnone (by simpa using hi)
      rw [toState_amid] at hstate
      rw [pc_amid] at hs hpc
      rw [hs]
      exact ⟨rfl, congrArg State.scene hstate, by simp [hstate], hpc⟩
    | ok next =>
      by_cases hret : i = .ret
      · subst hret
        obtain ⟨after, hs, hscene, hlimit, hpc⟩ := ha.step_of_ret hfits hnone (by simpa using hi)
        rw [toState_amid] at hs hlimit
        rw [unit_amid] at hpc
        rw [hs]
        exact ⟨rfl, hscene, hlimit, hpc⟩
      · obtain ⟨after, hs, hscene, hlimit, hafter⟩ :=
          ha.step_of_performed hfits hnone (by simpa using hi) hret
        have hlater : after.toState.Fits := fits_invariant.step_amid hm hs
        have hstill := interrupt_step_of_none hnone
        have hcontext := (m.amid (w 0)).toContext_step
        rw [hs] at hstill hcontext
        rw [toState_amid] at hlimit
        rw [toContext_amid] at hcontext
        have hrun := ih hafter hlater hstill w.later
        -- the rest starts behind the bytes of the instruction just performed
        rw [hafter.2, span_append, ← h.2, hscene, hlimit, hcontext] at hrun
        simpa [hs, hret, Outcome.position, Nat.add_assoc] using hrun

/-- A unit that was loaded with the code of the program `p`, and a machine over it under any
settings but a flag, amid any events: the run comes to what `p` comes to, performed on no operands
and the environment of the settings. The result is the same, or the error, at the bytes in front of
the instruction that failed; the operands and the environment are; and the machine is left at the
end of the code, or in front of the instruction that failed. -/
theorem run_eq_evaluate (hload : (CodeUnit.load i image).1 = .ok u)
    (hcode : image.code = assemble p) (s : Settings) (hflag : s.interrupt = none) :
    ∃ m, ofSettings u s = .ok m ∧ m.runAmid .quiet = m.run ∧ ∀ w,
      let o := Context.evaluate s.stackLimit w ⟨u, s.phase, s.ambient, s.resolver⟩ p ⟨[], m.env⟩
      let after := (m.runAmid w).2
      (m.runAmid w).1 = o.result.mapError (Trouble.at (span o.passed)) ∧
        after.stack.values = o.scene.operands ∧ after.stack.limit = s.stackLimit ∧
        after.env = o.scene.env ∧
        after.pc = o.position 0 u.code.size ∧
        ∀ e, o.result = .error e → ∃ i rest, p = o.passed ++ i :: rest := by
  obtain ⟨m, hok, hcontext, hpc, hstack, hinterrupt⟩ := ofSettings_eq_ok u s
  refine ⟨m, hok, m.runAmid_quiet, fun w => ?_⟩
  have hunit : m.unit = u := congrArg Context.unit hcontext
  have hbetween : m.Between [] p :=
    ⟨by rw [hunit, CodeUnit.program_of_load hload hcode, List.nil_append], hpc⟩
  obtain ⟨hresult, hscene, hlimit, hend⟩ :=
    hbetween.runAmid (.of_empty hstack) (hinterrupt.trans hflag) w
  rw [hunit] at hend
  simp only [State.scene, hstack, OperandStack.empty, hpc, hcontext, Nat.zero_add]
    at hresult hscene hlimit hend
  exact ⟨hresult, congrArg Scene.operands hscene, hlimit, congrArg Scene.env hscene, hend,
    fun e he => Context.evaluate_error he⟩

/-- The second of two discards finds no operand. -/
theorem run_eq_evaluate_underflow :
    let p : List Instruction := [.constant 0, .pop, .pop]
    ∃ u m, (CodeUnit.load .new ⟨[], [⟨none, []⟩], [.int 7], 0, assemble p⟩).1 = .ok u ∧
      ofSettings u .default = .ok m ∧ m.run.1 = .error (.operandStackUnderflow 4) ∧
      m.run.2.pc = 4 := by
  intro p
  have hsound : Image.Sound ⟨[], [⟨none, []⟩], [.int 7], 0, assemble p⟩ := by
    refine Image.sound_of_empty_frame (by decide) (by decide) fun c hc n hn => ?_
    simp only [p, List.mem_cons, List.not_mem_nil, or_false] at hc
    rcases hc with rfl | rfl | rfl
    · cases hn
      decide
    · cases hn
    · cases hn
  obtain ⟨u, hu⟩ := CodeUnit.exists_load_of_sound hsound (i := .new) (by decide)
  have hconstant : u.constant 0 = .ok (.int 7) := by
    have hspells := (CodeUnit.acceptedAs_of_load hu).spells.constants
    obtain ⟨k, rest, hk, hrest, hconstants⟩ := List.forall₂_cons_right_iff.mp hspells
    cases hk
    rw [Draft.constant, ← Array.getElem?_toList, hconstants]
    rfl
  have hevaluate (c : Context) (hunit : c.unit = u) (env : Environment) :
      Context.evaluate OperandStack.defaultLimit .quiet c p ⟨[], env⟩ =
        ⟨.error .noOperand, ⟨[], env⟩, [.constant 0, .pop]⟩ := by
    have hfirst : c.perform OperandStack.defaultLimit ⟨[], env⟩ (.constant 0) =
        .ok ⟨[.int 7], env⟩ := by
      rw [Context.perform, hunit, hconstant]
      rfl
    have hamid : c.amid (Course.quiet 0) = c := rfl
    simp only [p, Context.evaluate, hamid, hfirst]
    rfl
  obtain ⟨m, hok, hquiet, hrun⟩ := run_eq_evaluate hu rfl .default rfl
  obtain ⟨hresult, -, -, -, hpc, -⟩ := hrun .quiet
  have hend := hevaluate ⟨u, .run, none, none⟩ rfl m.env
  rw [hquiet] at hresult hpc
  refine ⟨u, m, hu, hok, ?_, ?_⟩
  · exact hresult.trans (congrArg (fun o => o.result.mapError (Trouble.at (span o.passed))) hend)
  · exact hpc.trans (congrArg (fun o => o.position 0 u.code.size) hend)

end Machine

end ScopeMachine
