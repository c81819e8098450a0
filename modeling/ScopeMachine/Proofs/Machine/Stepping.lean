import ScopeMachine.Proofs.Code.Reading
import ScopeMachine.Proofs.Machine.Session

/-!
# What one step can do

`Between`: the machine stands between two parts of its unit's program. From there a step stops at
the flag, finishes behind the last instruction, or executes the first instruction ahead
(`Between.step_cases`); it never meets code or an index that is out of order.
-/

namespace ScopeMachine

open Instruction

/-! ## Effects -/

namespace Machine

theorem note_eq (m : Machine) (l : Option Lookup) :
    m.note l = { m with
      lookups := l.toList ++ m.lookups
      interrupt := if l.any (·.interrupts) then m.interrupt.map (·.request) else m.interrupt } := by
  unfold note requestInterrupt
  cases l with
  | none => rfl
  | some l => by_cases h : l.interrupts <;> simp [h]

@[simp] theorem toContext_commit (m : Machine) (width : Nat) (effect : Effect) :
    (m.commit width effect).2.toContext = m.toContext := by
  unfold commit
  split <;> simp [note_eq]

@[simp] theorem toState_commit (m : Machine) (width : Nat) (effect : Effect) :
    (m.commit width effect).2.toState = effect.state := by
  unfold commit
  split <;> rfl

@[simp] theorem result_commit (m : Machine) (width : Nat) (effect : Effect) :
    (m.commit width effect).1 = effect.result := by
  unfold commit
  split <;> simp [*]

theorem commit_error {width : Nat} (h : effect.result = .error e) :
    commit m width effect = (.error e, { m.note effect.lookup with toState := effect.state }) := by
  simp only [commit, h]

theorem commit_proceed {width : Nat} (h : effect.result = .ok .proceed) :
    commit m width effect = (.ok .proceed,
      { m.note effect.lookup with toState := effect.state, pc := m.pc + width }) := by
  simp only [commit, h]

theorem commit_finished {width : Nat} (h : effect.result = .ok (.finished v)) :
    commit m width effect = (.ok (.finished v),
      { m.note effect.lookup with toState := effect.state, pc := m.unit.code.size }) := by
  simp only [commit, h]

/-- A step fails or finishes at once, or executes the instruction at the position. -/
theorem step_cases (m : Machine) :
    (∃ e, m.step = (.error e, m)) ∨ (∃ v, m.step = (.ok (.finished v), m)) ∨
      ∃ i, decodeAt m.unit.code m.pc = .ok i ∧
        m.step = m.commit i.width (m.toContext.execute m.pc i m.toState) := by
  unfold step
  split
  · exact .inl ⟨_, rfl⟩
  split
  · split
    · exact .inl ⟨_, rfl⟩
    · next i hi => exact .inr (.inr ⟨i, hi, rfl⟩)
  · exact .inr (.inl ⟨_, rfl⟩)

/-- A step that fails is stopped, finds no instruction, or fails as it executes one. -/
theorem step_error {m : Machine} (h : m.step.1 = .error e) :
    e = .interrupted m.pc ∨ (∃ cause, e = .malformed cause) ∨
      ∃ i, decodeAt m.unit.code m.pc = .ok i ∧
        (m.toContext.execute m.pc i m.toState).result = .error e := by
  unfold step at h
  split at h
  · cases h
    exact .inl rfl
  split at h
  · split at h
    next cause _ =>
      cases h
      exact .inr (.inl ⟨cause, rfl⟩)
    next i hi =>
      rw [result_commit] at h
      exact .inr (.inr ⟨i, hi, h⟩)
  · cases h

theorem toContext_step (m : Machine) : m.step.2.toContext = m.toContext := by
  rcases m.step_cases with ⟨e, hs⟩ | ⟨v, hs⟩ | ⟨i, -, hs⟩ <;> simp [hs]

theorem run_eq (m : Machine) :
    m.run = match m.step with
      | (.error e, after) => (.error e, after)
      | (.ok (.finished v), after) => (.ok v, after)
      | (.ok .proceed, after) => after.run := by
  rw [run]
  split <;> simp_all

/-! A machine to which no flag is attached is never stopped, and none gets attached. -/

section NoFlag

variable {m : Machine}

theorem isInterrupted_of_none (h : m.interrupt = none) : m.isInterrupted = false := by
  simp [isInterrupted, h]

theorem interrupt_amid_of_none (h : m.interrupt = none) (events : List Event) :
    (m.amid events).interrupt = none := by
  obtain ⟨flag, heq, hsome⟩ := m.amid_eq events
  rw [heq]
  simpa [h] using hsome

theorem interrupt_step_of_none (h : m.interrupt = none) : m.step.2.interrupt = none := by
  rcases m.step_cases with ⟨e, hs⟩ | ⟨v, hs⟩ | ⟨i, -, hs⟩
  · rwa [hs]
  · rwa [hs]
  · rw [hs]
    unfold commit
    split <;> simp [note_eq, h]

end NoFlag

end Machine

/-! ## Errors of instructions -/

@[simp] theorem Effect.ofChange_result_eq_error {lookup : Option Lookup} :
    (Effect.ofChange change lookup).result = .error e ↔ change.1 = .error e := by
  unfold ofChange
  cases change.1 <;> simp [Except.map]

namespace State

variable {s : State}

theorem push_error (h : (s.push v).1 = .error e) : e = .operandStackOverflow s.stack.limit := by
  unfold push OperandStack.push at h
  split at h
  next hpush =>
    split at hpush
    · cases hpush
    · cases hpush
      cases h
      rfl
  · cases h

theorem drop_error (h : (s.drop pc).1 = .error e) : e = .operandStackUnderflow pc := by
  unfold drop OperandStack.pop at h
  split at h
  next hpop =>
    split at hpop
    · cases hpop
    · cases hpop
      cases h
      rfl
  · cases h

theorem replaceTop_error (h : (s.replaceTop pc v).1 = .error e) :
    e = .operandStackUnderflow pc ∨ ∃ limit, e = .operandStackOverflow limit := by
  unfold replaceTop at h
  split at h
  next hdrop =>
    cases h
    exact .inl (drop_error (congrArg Prod.fst hdrop))
  next => exact .inr ⟨_, push_error h⟩

end State

theorem Environment.write_error {env : Environment} (h : env.write m v declares = .error e) :
    e = .unresolvedBinding m ∨ ∃ name, e = .immutableBinding name := by
  unfold write at h
  split at h <;> split at h <;> cases h
  · exact .inr ⟨_, rfl⟩
  · exact .inl rfl

theorem Environment.read_error {env : Environment}
    (h : (env.read m phase ambient).result = .error e) :
    e = .unresolvedBinding m ∨ e = .usedBeforeInitialization m := by
  unfold read uninitialized at h
  split at h
  · split at h
    · cases h
    · split at h <;> cases h
      exact .inr rfl
  · split at h
    · cases h
      exact .inl rfl
    · next a =>
      cases ha : a.answer m with
      | ok v =>
        rw [ha] at h
        cases h
      | error _ =>
        rw [ha] at h
        cases h
        exact .inl rfl

theorem State.writeTop_error {s : State} (h : (s.writeTop pc m declares).1 = .error e) :
    e = .operandStackUnderflow pc ∨ e = .unresolvedBinding m ∨
      ∃ name, e = .immutableBinding name := by
  unfold writeTop at h
  split at h
  · cases h
    exact .inl rfl
  · split at h
    next hwrite =>
      cases h
      exact .inr (Environment.write_error hwrite)
    · cases h

theorem State.leave_error {s : State} (h : s.leave.1 = .error e) : e = .frameUnderflow := by
  unfold leave Environment.pop at h
  split at h
  next hpop =>
    split at hpop <;> cases hpop
    cases h
    rfl
  · cases h

/-! ## Instructions -/

/-- The effects that instructions have on a state. -/
inductive Does (s : State) (pc : Nat) : Effect → Prop
  | fail (e lookup) : Does s pc ⟨.error e, s, lookup⟩
  | push (v lookup) : Does s pc (.ofChange (s.push v) lookup)
  | drop : Does s pc (.ofChange (s.drop pc) none)
  | replaceTop (v lookup) : s.stack.top? = some base →
      Does s pc (.ofChange (s.replaceTop pc v) lookup)
  | writeTop (m declares) : Does s pc (.ofChange (s.writeTop pc m declares) none)
  | enter (id t) : Does s pc (.ofChange (.ok (), s.enter id t) none)
  | leave : Does s pc (.ofChange s.leave none)
  | finish : Does s pc ⟨.ok (.finished s.takeResult.1), s.takeResult.2, none⟩

namespace Context

theorem does_withMultiname (c : Context) {s : State} {effect : Multiname → Effect}
    (h : ∀ m, Does s pc (effect m)) : Does s pc (c.withMultiname n s effect) := by
  unfold withMultiname
  split
  · exact .fail ..
  · exact h _

theorem does_dotRead (c : Context) (pc : Nat) (m : Multiname) (s : State) :
    Does s pc (c.dotRead pc m s) := by
  unfold dotRead
  split
  · exact .fail ..
  next htop =>
  split
  · exact .fail ..
  split
  · exact .fail ..
  · exact .replaceTop _ _ htop

theorem does_lexicalRead (c : Context) (m : Multiname) (s : State) :
    Does s pc (c.lexicalRead m s) := by
  simp only [lexicalRead]
  split
  · exact .fail ..
  · exact .push ..

theorem does_execute (c : Context) (pc : Nat) (i : Instruction) (s : State) :
    Does s pc (c.execute pc i s) := by
  cases i with
  | constant n =>
    simp only [execute]
    split
    · exact .fail ..
    · exact .push ..
  | pop => exact .drop
  | multiname n => exact c.does_withMultiname fun _ => .push ..
  | dotRead n => exact c.does_withMultiname fun m => c.does_dotRead pc m s
  | lexicalRead n => exact c.does_withMultiname fun m => c.does_lexicalRead m s
  | lexicalWrite n => exact c.does_withMultiname fun m => .writeTop m true
  | lexicalAssign n => exact c.does_withMultiname fun m => .writeTop m false
  | pushFrame n =>
    simp only [execute]
    split
    · exact .fail ..
    · exact .enter ..
  | popFrame => exact .leave
  | ret => exact .finish

end Context

inductive EvalError.OfExecution (pc : Nat) : EvalError → Prop
  | operandStackUnderflow : OfExecution pc (.operandStackUnderflow pc)
  | operandStackOverflow : OfExecution pc (.operandStackOverflow limit)
  | unresolvedBinding : OfExecution pc (.unresolvedBinding m)
  | usedBeforeInitialization : OfExecution pc (.usedBeforeInitialization m)
  | immutableBinding : OfExecution pc (.immutableBinding q)
  | frameUnderflow : OfExecution pc .frameUnderflow

namespace Context

variable {c : Context}

theorem dotRead_error (h : (c.dotRead pc m s).result = .error e) :
    e = .operandStackUnderflow pc ∨ e = .unresolvedBinding m ∨
      ∃ limit, e = .operandStackOverflow limit := by
  unfold dotRead at h
  split at h
  · cases h
    exact .inl rfl
  split at h
  · cases h
    exact .inr (.inl rfl)
  split at h
  · cases h
    exact .inr (.inl rfl)
  · rcases State.replaceTop_error (Effect.ofChange_result_eq_error.mp h) with h | h
    · exact .inl h
    · exact .inr (.inr h)

theorem lexicalRead_error (h : (c.lexicalRead m s).result = .error e) :
    e = .unresolvedBinding m ∨ e = .usedBeforeInitialization m ∨
      e = .operandStackOverflow s.stack.limit := by
  unfold lexicalRead at h
  simp only at h
  split at h
  next hread =>
    cases h
    rcases Environment.read_error hread with h | h
    · exact .inl h
    · exact .inr (.inl h)
  · exact .inr (.inr (State.push_error (Effect.ofChange_result_eq_error.mp h)))

theorem withMultiname_error {effect : Multiname → Effect}
    (h : (c.withMultiname n s effect).result = .error e) :
    (∃ cause, Draft.errorOf? (c.unit.multinames.get n) = some cause ∧ e = .malformed cause) ∨
      ∃ m, (effect m).result = .error e := by
  unfold withMultiname at h
  split at h
  next cause hget =>
    cases h
    exact .inl ⟨cause, by rw [hget, Draft.errorOf?], rfl⟩
  next m _ => exact .inr ⟨m, h⟩

/-- What goes wrong with an instruction is that of its look-up, the one the verification makes, or
of its execution. -/
theorem execute_error (h : (c.execute pc i s).result = .error e) :
    (∃ cause, c.unit.indexFault? i = some cause ∧ e = .malformed cause) ∨ e.OfExecution pc := by
  -- an index out of its table is found by the look-up; the rest is up to operands and frames
  cases i with
  | constant n =>
    simp only [execute] at h
    split at h
    next cause hget =>
      cases h
      exact .inl ⟨cause, by rw [Draft.indexFault?, hget, Draft.errorOf?], rfl⟩
    next =>
      obtain rfl := State.push_error (Effect.ofChange_result_eq_error.mp h)
      exact .inr .operandStackOverflow
  | pop =>
    obtain rfl := State.drop_error (Effect.ofChange_result_eq_error.mp h)
    exact .inr .operandStackUnderflow
  | multiname n =>
    rcases withMultiname_error h with hfault | ⟨m, hm⟩
    · exact .inl hfault
    · obtain rfl := State.push_error (Effect.ofChange_result_eq_error.mp hm)
      exact .inr .operandStackOverflow
  | dotRead n =>
    rcases withMultiname_error h with hfault | ⟨m, hm⟩
    · exact .inl hfault
    · right
      rcases dotRead_error hm with rfl | rfl | ⟨_, rfl⟩ <;> constructor
  | lexicalRead n =>
    rcases withMultiname_error h with hfault | ⟨m, hm⟩
    · exact .inl hfault
    · right
      rcases lexicalRead_error hm with rfl | rfl | rfl <;> constructor
  | lexicalWrite n | lexicalAssign n =>
    rcases withMultiname_error h with hfault | ⟨m, hm⟩
    · exact .inl hfault
    · right
      rcases State.writeTop_error (Effect.ofChange_result_eq_error.mp hm) with
        rfl | rfl | ⟨_, rfl⟩ <;> constructor
  | pushFrame n =>
    simp only [execute] at h
    split at h
    next cause hget =>
      cases h
      exact .inl ⟨cause, by rw [Draft.indexFault?, hget, Draft.errorOf?], rfl⟩
    next => cases h
  | popFrame =>
    obtain rfl := State.leave_error (Effect.ofChange_result_eq_error.mp h)
    exact .inr .frameUnderflow
  | ret => cases h

theorem execute_ne_malformed (hi : i ∈ c.unit.program) :
    (c.execute pc i s).result ≠ .error (.malformed e) := by
  intro h
  rcases execute_error h with ⟨cause, hindex, -⟩ | hother
  · cases hindex.symm.trans (c.unit.indexFault?_eq_none hi)
  · cases hother

theorem execute_ne_interrupted (c : Context) (pc : Nat) (i : Instruction) (s : State) :
    (c.execute pc i s).result ≠ .error (.interrupted stop) := by
  intro h
  rcases execute_error h with ⟨_, -, hother⟩ | hother <;> cases hother

end Context

/-! ## Steps -/

namespace Machine

/-- The machine stands behind the one part of its unit's program and before the other. -/
def Between (m : Machine) (front back : List Instruction) : Prop :=
  m.unit.program = front ++ back ∧ m.pc = span front

variable {m : Machine}

theorem Between.boundary (h : m.Between front back) : Boundary m.unit.code m.pc :=
  m.unit.boundary_iff.mpr ⟨front, back, h⟩

theorem exists_between (h : Boundary m.unit.code m.pc) : ∃ front back, m.Between front back :=
  m.unit.boundary_iff.mp h

theorem Between.pc_lt_iff (h : m.Between front back) : m.pc < m.unit.code.size ↔ back ≠ [] := by
  rw [← m.unit.span_program, h.1, h.2, span_append]
  cases back with
  | nil => simp
  | cons i back =>
    have := i.width_pos
    simp
    omega

theorem Between.decodeAt (h : m.Between front (i :: back)) :
    Instruction.decodeAt m.unit.code m.pc = .ok i := by
  have hreads := m.unit.reads
  rw [h.1] at hreads
  simpa [h.2] using hreads.split.2.head

/-- What a step can do: stop at the flag, finish at the end of the program, or execute the
instruction ahead. -/
theorem Between.step_cases (h : m.Between front back) :
    (m.isInterrupted = true ∧ m.step = (.error (.interrupted m.pc), m)) ∨
      (m.isInterrupted = false ∧ back = [] ∧
        m.step = (.ok (.finished m.toState.peekResult), m)) ∨
      ∃ i rest, m.isInterrupted = false ∧ back = i :: rest ∧
        m.step = m.commit i.width (m.toContext.execute m.pc i m.toState) := by
  cases hq : m.isInterrupted with
  | true => exact .inl ⟨rfl, by simp [step, hq]⟩
  | false =>
    cases back with
    | nil =>
      have hend : ¬m.pc < m.unit.code.size := by simp [h.pc_lt_iff]
      exact .inr (.inl ⟨rfl, rfl, by simp [step, hq, hend]⟩)
    | cons i rest =>
      have hin : m.pc < m.unit.code.size := by simp [h.pc_lt_iff]
      exact .inr (.inr ⟨i, rest, rfl, rfl, by simp [step, hq, hin, h.decodeAt]⟩)

/-- Where a step leaves the machine: where it was after an error, one instruction further on, or
behind the whole program. -/
theorem Between.step (h : m.Between front back) :
    (∀ e, m.step.1 = .error e → m.step.2.Between front back) ∧
      (m.step.1 = .ok .proceed →
        ∃ i rest, back = i :: rest ∧ m.step.2.Between (front ++ [i]) rest) ∧
      ∀ v, m.step.1 = .ok (.finished v) → m.step.2.Between m.unit.program [] := by
  rcases h.step_cases with ⟨-, hs⟩ | ⟨-, rfl, hs⟩ | ⟨i, rest, -, rfl, hs⟩
  · simp [hs, h]
  · refine ⟨by simp [hs], by simp [hs], ?_⟩
    have hall : m.unit.program = front := by simpa using h.1
    simpa [hs, hall] using h
  · rcases hr : (m.toContext.execute m.pc i m.toState).result with e | _ | v
    · rw [hs, commit_error hr]
      simpa [Between, note_eq] using h
    · rw [hs, commit_proceed hr]
      simp [Between, note_eq, h.1, h.2]
    · rw [hs, commit_finished hr]
      simp [Between, note_eq, m.unit.span_program]

end Machine

end ScopeMachine
