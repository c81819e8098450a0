import ScopeMachine.Proofs.Machine.Boundaries

/-!
# Failed steps leave no trace

An instruction works in place, so a step that fails half-way could leave what it did before. It
never does, as long as the operands are within their limit (`State.Fits`), and no machine ever goes
beyond it: `failed_steps_leave_no_trace`. A run that failed may therefore be taken up again where
it stopped.
-/

namespace ScopeMachine

/-! ## The limit of the stack -/

def State.Fits (s : State) : Prop := s.stack.size ≤ s.stack.limit

namespace OperandStack

theorem push_eq_ok (h : push s v = .ok s') :
    s'.values = v :: s.values ∧ s'.limit = s.limit ∧ s'.size ≤ s'.limit := by
  unfold push at h
  split at h <;> cases h
  exact ⟨rfl, rfl, by assumption⟩

theorem push_of_lt (h : s.size < s.limit) (v : Value) : ∃ s', push s v = .ok s' := by
  simp [push, h]

theorem pop_eq_ok (h : pop s pc = .ok (v, s')) :
    s.values = v :: s'.values ∧ s'.limit = s.limit ∧ s'.size < s.size := by
  unfold pop at h
  split at h
  next hsize =>
    cases h
    refine ⟨rfl, rfl, ?_⟩
    simp at hsize ⊢
    omega
  · cases h

theorem pop_eq_error (h : pop s pc = .error e) : s.values = [] ∧ e = .operandStackUnderflow pc := by
  unfold pop at h
  split at h <;> cases h
  exact ⟨rfl, rfl⟩

theorem pop_of_top? (h : s.top? = some v) (pc : Nat) : ∃ s', pop s pc = .ok (v, s') := by
  obtain ⟨values, limit, size, hsize⟩ := s
  cases values with
  | nil => simp [top?] at h
  | cons w rest =>
    have : w = v := by simpa [top?] using h
    exact ⟨_, by rw [pop, this]⟩

end OperandStack

namespace State

variable {s : State}

theorem Fits.of_empty (h : s.stack = .empty limit) : s.Fits := by
  simp [Fits, h, OperandStack.empty]

theorem Fits.push (h : s.Fits) (v : Value) : (s.push v).2.Fits := by
  unfold State.push
  split
  · exact h
  · next hpush => exact (OperandStack.push_eq_ok hpush).2.2

theorem Fits.drop (h : s.Fits) (pc : Nat) : (s.drop pc).2.Fits := by
  unfold State.drop
  split
  · exact h
  · next hpop =>
    obtain ⟨-, hlimit, hsize⟩ := OperandStack.pop_eq_ok hpop
    simp only [Fits] at h ⊢
    omega

theorem Fits.replaceTop (h : s.Fits) (pc : Nat) (v : Value) : (s.replaceTop pc v).2.Fits := by
  have hdrop := h.drop pc
  unfold State.replaceTop
  split
  · next hs => simpa [hs] using hdrop
  · next hs =>
    rw [hs] at hdrop
    exact hdrop.push v

theorem Fits.writeTop (h : s.Fits) (pc : Nat) (m : Multiname) (declares : Bool) :
    (s.writeTop pc m declares).2.Fits := by
  unfold State.writeTop
  split
  · exact h
  · split <;> exact h

theorem Fits.leave (h : s.Fits) : s.leave.2.Fits := by
  unfold State.leave
  split <;> exact h

theorem Fits.takeResult (h : s.Fits) : s.takeResult.2.Fits := by
  unfold State.takeResult
  split
  · next hpop =>
    obtain ⟨-, hlimit, hsize⟩ := OperandStack.pop_eq_ok hpop
    simp only [Fits] at h ⊢
    omega
  · exact h

end State

theorem Does.fits (h : Does s pc effect) (hs : s.Fits) : effect.state.Fits := by
  cases h with
  | fail => exact hs
  | push v => exact hs.push v
  | drop => exact hs.drop pc
  | replaceTop v => exact hs.replaceTop pc v
  | writeTop m declares => exact hs.writeTop pc m declares
  | enter => exact hs
  | leave => exact hs.leave
  | finish => exact hs.takeResult

namespace Machine

theorem fits_invariant : Invariant fun m => m.toState.Fits where
  step m h := by
    rcases m.step_cases with ⟨e, hs⟩ | ⟨v, hs⟩ | ⟨i, -, hs⟩
    · rwa [hs]
    · rwa [hs]
    · rw [hs, toState_commit]
      exact (m.toContext.does_execute m.pc i m.toState).fits h
  rewind _ _ := Nat.zero_le _
  phase _ _ h := h
  event m e h := by
    rwa [show (m.happen e).toState = m.toState from m.toState_amid [e]]
  env _ _ h := h

end Machine

/-! ## Failures -/

namespace State

variable {s : State}

theorem push_failed (h : (s.push v).1 = .error e) : (s.push v).2 = s := by
  unfold push at h ⊢
  split <;> simp_all

theorem drop_failed (h : (s.drop pc).1 = .error e) : (s.drop pc).2 = s := by
  unfold drop at h ⊢
  split <;> simp_all

theorem writeTop_failed (h : (s.writeTop pc m declares).1 = .error e) :
    (s.writeTop pc m declares).2 = s := by
  unfold writeTop at h ⊢
  split
  · rfl
  · split <;> simp_all

theorem leave_failed (h : s.leave.1 = .error e) : s.leave.2 = s := by
  unfold leave at h ⊢
  split <;> simp_all

/-- There is room for the value, since it takes the place of the operand. -/
theorem Fits.replaceTop_eq_ok (h : s.Fits) (htop : s.stack.top? = some base) (pc : Nat)
    (v : Value) :
    ∃ stack rest, s.replaceTop pc v = (.ok (), { s with stack }) ∧
      s.stack.values = base :: rest ∧ stack.values = v :: rest ∧ stack.limit = s.stack.limit := by
  obtain ⟨popped, hpop⟩ := OperandStack.pop_of_top? htop pc
  obtain ⟨hvalues, hlimit, hsize⟩ := OperandStack.pop_eq_ok hpop
  have hroom : popped.size < popped.limit := by
    have : s.stack.size ≤ s.stack.limit := h
    omega
  obtain ⟨stack, hpush⟩ := OperandStack.push_of_lt hroom v
  obtain ⟨hv, hpushed, -⟩ := OperandStack.push_eq_ok hpush
  refine ⟨stack, popped.values, ?_, hvalues, hv, hpushed.trans hlimit⟩
  simp [State.replaceTop, State.drop, hpop, State.push, hpush]

end State

/-- Within the limit of the stack, an instruction that fails has done nothing. -/
theorem Does.state_of_error (h : Does s pc effect) (hs : s.Fits) (he : effect.result = .error e) :
    effect.state = s := by
  cases h with
  | fail => rfl
  | push v => exact State.push_failed (Effect.ofChange_result_eq_error.mp he)
  | drop => exact State.drop_failed (Effect.ofChange_result_eq_error.mp he)
  | replaceTop v _ htop =>
    obtain ⟨stack, rest, hok, -⟩ := hs.replaceTop_eq_ok htop pc v
    simp [Effect.ofChange, hok, Except.map] at he
  | writeTop => exact State.writeTop_failed (Effect.ofChange_result_eq_error.mp he)
  | enter => cases he
  | leave => exact State.leave_failed (Effect.ofChange_result_eq_error.mp he)
  | finish => cases he

/-- The effect never overflows the stack, and unless it fails it puts one operand in the place of
another. -/
def Effect.ReplacesTop (effect : Effect) (s : State) : Prop :=
  (∀ limit, effect.result ≠ .error (.operandStackOverflow limit)) ∧
    (effect.result = .ok .proceed → ∃ base v rest,
      s.stack.values = base :: rest ∧ effect.state.stack.values = v :: rest)

namespace Context

variable {c : Context} {s : State}

theorem dotRead_replacesTop (hs : s.Fits) : (c.dotRead pc m s).ReplacesTop s := by
  unfold dotRead Effect.ReplacesTop
  split
  · simp [Effect.fail]
  next base htop =>
  split
  · simp [Effect.fail]
  next host _ =>
  split
  · simp
  next v _ =>
  obtain ⟨stack, rest, hok, hbase, hv, -⟩ := hs.replaceTop_eq_ok htop pc v
  rw [hok]
  exact ⟨by simp [Effect.ofChange, Except.map], fun _ => ⟨base, v, rest, hbase, hv⟩⟩

theorem execute_dotRead_replacesTop (hs : s.Fits) :
    (c.execute pc (.dotRead n) s).ReplacesTop s := by
  simp only [execute, withMultiname]
  split
  · simp [Effect.ReplacesTop, Effect.fail]
  · exact dotRead_replacesTop hs

end Context

namespace Machine

theorem step_of_decodeAt {m : Machine} (hi : Instruction.decodeAt m.unit.code m.pc = .ok i) :
    m.step = (.error (.interrupted m.pc), m) ∨
      m.step = m.commit i.width (m.toContext.execute m.pc i m.toState) := by
  have hin := Instruction.decodeAt_fits hi
  have := i.width_pos
  by_cases hq : m.isInterrupted
  · simp [step, hq]
  · have : m.pc < m.unit.code.size := by omega
    simp [step, hq, this, hi]

/-- A step that fails changes nothing but the log and the flag, and the flag only if a host that it
asked raised it. -/
theorem step_failed {m : Machine} (hm : m.toState.Fits) (he : m.step.1 = .error e) :
    m.step.2 = { m with lookups := m.step.2.lookups, interrupt := m.step.2.interrupt } ∧
      (m.step.2.interrupt = m.interrupt ∨
        ∃ l, m.step.2.lookups = l :: m.lookups ∧ l.interrupts = true) := by
  rcases m.step_cases with ⟨e', hs⟩ | ⟨v, hs⟩ | ⟨i, -, hs⟩
  · simp [hs]
  · simp [hs]
  have hdoes := m.toContext.does_execute m.pc i m.toState
  rcases hr : (m.toContext.execute m.pc i m.toState).result with e' | _ | v
  · rw [hs, commit_error hr, hdoes.state_of_error hm hr, note_eq]
    refine ⟨rfl, ?_⟩
    cases (m.toContext.execute m.pc i m.toState).lookup with
    | none => simp
    | some l => by_cases hl : l.interrupts <;> simp [hl]
  · simp [hs, commit_proceed hr] at he
  · simp [hs, commit_finished hr] at he

/-! ## The log is never read -/

def withLookups (m : Machine) (lookups : List Lookup) : Machine := { m with lookups }

theorem lookups_commit (m : Machine) (width : Nat) (effect : Effect) :
    (m.commit width effect).2.lookups = effect.lookup.toList ++ m.lookups := by
  unfold commit
  split <;> simp [note_eq]

theorem commit_withLookups (m : Machine) (lookups : List Lookup) (width : Nat) (effect : Effect) :
    (m.withLookups lookups).commit width effect = ((m.commit width effect).1,
      (m.commit width effect).2.withLookups (effect.lookup.toList ++ lookups)) := by
  unfold commit
  split <;> simp [note_eq, withLookups]

/-- What a step asks goes in front of the log, whatever the log says. -/
theorem step_withLookups (m : Machine) :
    ∃ asked, m.step.2.lookups = asked ++ m.lookups ∧
      ∀ lookups, (m.withLookups lookups).step =
        (m.step.1, m.step.2.withLookups (asked ++ lookups)) := by
  -- the log is written by a step and never read
  have hflag (lookups) : (m.withLookups lookups).isInterrupted = m.isInterrupted := rfl
  have hcode (lookups) : (m.withLookups lookups).unit.code = m.unit.code := rfl
  have hpc (lookups) : (m.withLookups lookups).pc = m.pc := rfl
  by_cases hq : m.isInterrupted
  · exact ⟨[], by simp [step, hq], by simp [step, hflag, hpc, hq]⟩
  by_cases hin : m.pc < m.unit.code.size
  · cases hd : Instruction.decodeAt m.unit.code m.pc with
    | error e =>
      exact ⟨[], by simp [step, hq, hin, hd], by simp [step, hflag, hcode, hpc, hq, hin, hd]⟩
    | ok i =>
      have hs : m.step = m.commit i.width (m.toContext.execute m.pc i m.toState) := by
        simp [step, hq, hin, hd]
      rw [hs]
      refine ⟨_, lookups_commit .., fun lookups => ?_⟩
      rw [← commit_withLookups]
      simp only [step, hflag, hcode, hpc, hq, hin, hd]
      rfl
  · refine ⟨[], by simp [step, hq, hin], fun lookups => ?_⟩
    simp only [step, hflag, hcode, hpc, hq, hin]
    rfl

theorem lookups_amid (m : Machine) (events : List Event) :
    (m.amid events).lookups = m.lookups := by
  obtain ⟨flag, heq, -⟩ := m.amid_eq events
  rw [heq]

theorem amid_withLookups (m : Machine) (lookups : List Lookup) (events : List Event) :
    (m.withLookups lookups).amid events = (m.amid events).withLookups lookups := by
  induction events generalizing m with
  | nil => rfl
  | cons e events ih =>
    rw [amid, List.foldl_cons, ← amid, show (m.withLookups lookups).happen e =
      (m.happen e).withLookups lookups by cases e <;> rfl, ih]
    rfl

theorem runAmid_withLookups (m : Machine) (w : Course) :
    ∃ asked, (m.runAmid w).2.lookups = asked ++ m.lookups ∧
      ∀ lookups, (m.withLookups lookups).runAmid w =
        ((m.runAmid w).1, (m.runAmid w).2.withLookups (asked ++ lookups)) := by
  -- on the steps of the run; what each of them asks goes in front of what was asked before
  fun_induction runAmid w m with
  | case1 w m e after hs =>
    obtain ⟨asked, hlog, hany⟩ := (m.amid (w 0)).step_withLookups
    simp only [hs, lookups_amid] at hlog hany
    exact ⟨asked, hlog, fun lookups => by rw [runAmid_eq, amid_withLookups, hany]⟩
  | case2 w m v after hs =>
    obtain ⟨asked, hlog, hany⟩ := (m.amid (w 0)).step_withLookups
    simp only [hs, lookups_amid] at hlog hany
    exact ⟨asked, hlog, fun lookups => by rw [runAmid_eq, amid_withLookups, hany]⟩
  | case3 w m after hs ih =>
    obtain ⟨asked, hlog, hany⟩ := (m.amid (w 0)).step_withLookups
    simp only [hs, lookups_amid] at hlog hany
    obtain ⟨more, hmore, hanymore⟩ := ih
    refine ⟨more ++ asked, by rw [hmore, hlog, List.append_assoc], fun lookups => ?_⟩
    rw [runAmid_eq, amid_withLookups, hany]
    simpa using hanymore (asked ++ lookups)

/-- What a step changes that fails: nothing but the log of questions, and the flag if a host that was
asked raised it. -/
structure Untouched (m after : Machine) : Prop where
  pc : after.pc = m.pc
  stack : after.stack = m.stack
  env : after.env = m.env
  flag : after.interrupt = m.interrupt ∨
    ∃ l, after.lookups = l :: m.lookups ∧ l.interrupts = true

/-- The step never overflows the stack, however small its limit, and puts one operand in the place
of another. -/
structure ReplacesTop (m : Machine) : Prop where
  no_overflow : ∀ limit, m.step.1 ≠ .error (.operandStackOverflow limit)
  replaced : m.step.1 = .ok .proceed → ∃ base v rest,
    m.stack.values = base :: rest ∧ m.step.2.stack.values = v :: rest

/-- After any change to the environment, flag for flag, the failed machine runs on as if the change
had been made before the step that failed. -/
def ResumesAs (last failed : Machine) : Prop :=
  ∀ (change : Environment → Environment) (flag : Option Interrupt) (w : Course),
    let again : Machine := { failed with env := change failed.env, interrupt := flag }
    let first : Machine := { last with env := change last.env, interrupt := flag }
    ∃ asked, (first.runAmid w).2.lookups = asked ++ last.lookups ∧
      again.runAmid w = ((first.runAmid w).1,
        { (first.runAmid w).2 with lookups := asked ++ failed.lookups })

structure FailsCleanly (m : Machine) : Prop where
  step : ∀ e, m.step.1 = .error e → m.Untouched m.step.2
  dotRead : ∀ n, Instruction.decodeAt m.unit.code m.pc = .ok (.dotRead n) → m.ReplacesTop
  run : ∀ w e, (m.runAmid w).1 = .error e →
    ∃ last, Passes w m last ∧ last.step = (.error e, (m.runAmid w).2) ∧
      last.ResumesAs (m.runAmid w).2

theorem resumesAs_of_step {m failed : Machine} (hm : m.toState.Fits)
    (h : m.step = (.error e, failed)) : m.ResumesAs failed := by
  intro change flag w again first
  obtain ⟨heq, -⟩ := step_failed hm (congrArg Prod.fst h)
  obtain ⟨asked, hlog, hany⟩ := first.runAmid_withLookups w
  refine ⟨asked, hlog, ?_⟩
  -- after the failure only the log and the flag differ, and the flag is set in both
  have hfirst : again = first.withLookups failed.lookups := by
    rw [h] at heq
    obtain ⟨context, state, pc, raised, lookups⟩ := failed
    obtain ⟨rfl, rfl, rfl, -, -⟩ := Machine.mk.inj heq
    rfl
  rw [hfirst, hany]
  rfl

/-- For every unit and all settings there is a machine, and whatever its host has done with it, a
failure leaves no trace: a step that fails leaves position, operands and environment as they were,
reading a property replaces the operand it reads from, and a run that failed may be taken up again
after any change to the environment. -/
theorem failed_steps_leave_no_trace (u : CodeUnit) (s : Settings) :
    ∃ start, ofSettings u s = .ok start ∧
      ∀ ops : List Operation, (start.after ops).FailsCleanly := by
  obtain ⟨start, hok, -, -, hstack, -⟩ := ofSettings_eq_ok u s
  refine ⟨start, hok, fun ops => ?_⟩
  have hm : (start.after ops).toState.Fits := fits_invariant.after (.of_empty hstack) ops
  refine ⟨fun e he => ?_, fun n hn => ?_, fun w e he => ?_⟩
  · obtain ⟨heq, hflag⟩ := step_failed hm he
    rw [heq]
    exact ⟨rfl, rfl, rfl, hflag⟩
  · rcases step_of_decodeAt hn with hs | hs
    · exact ⟨by simp [hs], by simp [hs]⟩
    obtain ⟨hlimit, hreplaced⟩ := Context.execute_dotRead_replacesTop hm
    refine ⟨?_, ?_⟩ <;> rw [hs, result_commit]
    · exact hlimit
    · rw [toState_commit]
      exact hreplaced
  · obtain ⟨last, hpasses, hlast⟩ := runAmid_error he
    exact ⟨last, hpasses, hlast, resumesAs_of_step (fits_invariant.passes hm hpasses) hlast⟩

end Machine

end ScopeMachine
