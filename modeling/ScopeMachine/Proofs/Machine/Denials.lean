import Mathlib.Data.List.Permutation
import ScopeMachine.Proofs.Code.Assembly
import ScopeMachine.Proofs.Code.Balance
import ScopeMachine.Proofs.Machine.Terms

/-!
# Where the terms of a machine show

An instruction denies what it is asked for in two cases: it would add an operand to a full stack, or it
reads a reference that resolves to a binding without a value (`execute_denies`). Nowhere else do the
terms of a machine show: phase and policy show in such reads alone, the limit in such pushes alone.
-/

namespace ScopeMachine

open Instruction

/-- The errors over which the terms of a machine decide. -/
def EvalError.isDenial : EvalError → Bool
  | .usedBeforeInitialization _ | .operandStackOverflow _ => true
  | .unresolvedBinding _ | .immutableBinding _ | .interrupted _ | .malformed _
  | .operandStackUnderflow _ | .frameUnderflow => false

/-- The instruction asks for what the state has not got: room for one more operand, or the value of a
binding. -/
inductive State.Denies (s : State) (u : CodeUnit) : Instruction → EvalError → Prop
  | push : i.addsOperand = true → s.stack.values.length = s.stack.limit →
      Denies s u i (.operandStackOverflow s.stack.limit)
  | read : u.multinames.get n = .ok x → s.env.find? x = some b →
      b.slot.initialized = false → Denies s u (.lexicalRead n) (.usedBeforeInitialization x)

theorem State.Denies.of_push {s : State} (hs : s.Fits) (hi : i.addsOperand = true)
    (h : (Effect.ofChange (s.push v) lookup).result = .error e) : s.Denies u i e := by
  have hpush := Effect.ofChange_result_eq_error.mp h
  obtain rfl := State.push_error hpush
  refine .push hi ?_
  rw [← s.stack.size_eq]
  refine Nat.le_antisymm hs (Nat.le_of_not_lt fun hroom => ?_)
  obtain ⟨stack, hok⟩ := OperandStack.push_of_lt hroom v
  simp [State.push, hok] at hpush

namespace Context

variable {c : Context} {s : State}

theorem lexicalRead_denies (hs : s.Fits) (hget : c.unit.multinames.get n = .ok x)
    (h : (c.lexicalRead x s).result = .error e) (he : e.isDenial = true) :
    s.Denies c.unit (.lexicalRead n) e := by
  simp only [lexicalRead] at h
  split at h
  next hread =>
    cases h
    rcases Environment.read_error hread with rfl | rfl
    · cases he
    · obtain ⟨-, b, hb, hnot⟩ := Environment.read_usedBeforeInitialization hread
      exact .read hget hb hnot
  next => exact .of_push hs rfl h

theorem execute_denies (hs : s.Fits) (h : (c.execute pc i s).result = .error e)
    (he : e.isDenial = true) : s.Denies c.unit i e := by
  -- what adds an operand or reads a binding can be denied it; other errors are no denials
  cases i with
  | constant n =>
    simp only [execute] at h
    split at h
    · cases h
      cases he
    · exact .of_push hs rfl h
  | pop =>
    obtain rfl := State.drop_error (Effect.ofChange_result_eq_error.mp h)
    cases he
  | multiname n =>
    rcases withMultiname_error h with ⟨cause, -, rfl⟩ | ⟨m, hm⟩
    · cases he
    · exact .of_push hs rfl hm
  | dotRead n =>
    rcases withMultiname_error h with ⟨cause, -, rfl⟩ | ⟨m, hm⟩
    · cases he
    · rcases dotRead_error hm with rfl | rfl | ⟨limit, rfl⟩
      · cases he
      · cases he
      · -- the property takes the place of its base, so there is always room for it
        exact absurd h ((execute_dotRead_replacesTop hs).1 limit)
  | lexicalRead n =>
    simp only [execute, withMultiname] at h
    split at h
    · cases h
      cases he
    next hget => exact lexicalRead_denies hs hget h he
  | lexicalWrite n | lexicalAssign n =>
    rcases withMultiname_error h with ⟨cause, -, rfl⟩ | ⟨m, hm⟩
    · cases he
    · rcases State.writeTop_error (Effect.ofChange_result_eq_error.mp hm) with
        rfl | rfl | ⟨_, rfl⟩ <;> cases he
  | pushFrame n =>
    simp only [execute] at h
    split at h <;> cases h
    cases he
  | popFrame =>
    obtain rfl := State.leave_error (Effect.ofChange_result_eq_error.mp h)
    cases he
  | ret => cases h

end Context

namespace Machine

variable {m : Machine}

theorem step_denies (hm : m.toState.Fits) (h : m.step.1 = .error e) (he : e.isDenial = true) :
    ∃ i, decodeAt m.unit.code m.pc = .ok i ∧ m.toState.Denies m.unit i e := by
  rcases step_error h with rfl | ⟨cause, rfl⟩ | ⟨i, hi, hfails⟩
  · cases he
  · cases he
  · exact ⟨i, hi, Context.execute_denies hm hfails he⟩

theorem outcomeAmid_denies (hm : m.toState.Fits) (h : m.outcomeAmid w k = .error e)
    (he : e.isDenial = true) :
    ∃ i, decodeAt m.unit.code (m.stepsAmid w k).pc = .ok i ∧
      (m.stepsAmid w k).toState.Denies m.unit i e := by
  have hfits := fits_invariant.amid (fits_invariant.stepsAmid hm w k) (w k)
  obtain ⟨i, hi, hdenies⟩ := step_denies hfits h he
  rw [unit_amid, unit_stepsAmid, pc_amid] at hi
  rw [unit_amid, unit_stepsAmid, toState_amid] at hdenies
  exact ⟨i, hi, hdenies⟩

/-! ## Phase and policy -/

theorem ofSettings_withReads (h : ofSettings u s = .ok m) (phase : Phase) (policy : Policy) :
    ofSettings u { s with phase, policy := some policy } =
      .ok (m.under { m.terms with phase, policy }) := by
  have henv : ({ s with phase, policy := some policy } : Settings).environment u =
      s.environment u := rfl
  unfold ofSettings at h ⊢
  rw [henv]
  cases hs : s.environment u with
  | error e =>
    rw [hs] at h
    cases h
  | ok env =>
    rw [hs] at h
    cases h
    cases s.policy <;> rfl

/-- For every unit and all settings there is a machine, and another phase or policy makes the same
machine but for these two. Whatever the host has done with it: if it rejects uninitialized reads, then
under any phase and policy all else is the same after every step and each step comes to the same, as
long as none is rejected; and a step that is rejected is the read of a reference that resolves to an
uninitialized binding. So a run that does not end in such a read comes to the same, and leaves the
machine the same, under every phase and every policy. -/
theorem phase_and_policy_show_in_reads_only (u : CodeUnit) (s : Settings) :
    ∃ start, ofSettings u s = .ok start ∧
      (∀ phase policy, ofSettings u { s with phase, policy := some policy } =
        .ok (start.under { start.terms with phase, policy })) ∧
      ∀ ops phase policy w,
        let m := start.after ops
        let t := { m.terms with phase, policy }
        m.terms.onUninitialized = .reject →
          (∀ k, (∀ j < k, ∀ x, m.outcomeAmid w j ≠ .error (.usedBeforeInitialization x)) →
            (m.under t).stepsAmid w k = (m.stepsAmid w k).under t ∧
              ((∀ x, m.outcomeAmid w k ≠ .error (.usedBeforeInitialization x)) →
                (m.under t).outcomeAmid w k = m.outcomeAmid w k)) ∧
          (∀ k x, m.outcomeAmid w k = .error (.usedBeforeInitialization x) →
            ∃ n b, decodeAt u.code (m.stepsAmid w k).pc = .ok (.lexicalRead n) ∧
              u.multinames.get n = .ok x ∧ (m.stepsAmid w k).env.find? x = some b ∧
              b.slot.initialized = false) ∧
          ((∀ x, (m.runAmid w).1 ≠ .error (.usedBeforeInitialization x)) →
            (m.under t).runAmid w = ((m.runAmid w).1, (m.runAmid w).2.under t)) := by
  obtain ⟨start, hok, hcontext, -, hstack, -⟩ := ofSettings_eq_ok u s
  refine ⟨start, hok, ofSettings_withReads hok, fun ops phase policy w => ?_⟩
  intro m t hreject
  have hm : m.toState.Fits := fits_invariant.after (.of_empty hstack) ops
  have hunit : m.unit = u := (unit_invariant u).after (congrArg Context.unit hcontext) ops
  have hwithin : m.terms.Within t := ⟨.inl hreject, Nat.le_refl _⟩
  -- the limits are one, so only a rejected read tells the terms apart
  have hsilent (e) (hne : ∀ x, e ≠ .usedBeforeInitialization x) : ¬m.terms.Tell t e := by
    rintro (- | hlt)
    · exact hne _ rfl
    · exact Nat.lt_irrefl _ hlt
  refine ⟨fun k hno => ?_, fun k x hx => ?_, fun hno => ?_⟩
  · have hbefore : ∀ j < k, ∀ e, m.outcomeAmid w j = .error e → ¬m.terms.Tell t e :=
      fun j hj e he => hsilent e fun x hx => hno j hj x (hx ▸ he)
    refine ⟨stepsAmid_under hm hwithin hbefore, fun hlast => ?_⟩
    exact outcomeAmid_under hm hwithin hbefore fun e he => hsilent e fun x hx => hlast x (hx ▸ he)
  · obtain ⟨i, hi, hdenies⟩ := outcomeAmid_denies hm hx rfl
    rw [hunit] at hi hdenies
    cases hdenies with
    | read hget hfind hnot => exact ⟨_, _, hi, hget, hfind, hnot⟩
  · exact runAmid_under hm hwithin fun e he => hsilent e fun x hx => hno x (hx ▸ he)

/-- The program writes one binding and reads another one, which is too early in the static phase and
not in the run phase, nor if the host has defined it before. -/
theorem read_of_unwritten_binding_shows :
    let y : Multiname := ⟨⟨2⟩, []⟩
    let p : List Instruction := [.constant 0, .lexicalWrite 0, .lexicalRead 1]
    let env : Environment := .ofBase (.instantiate 0 ⟨none, [⟨y.declarationName, .none⟩]⟩)
    let s : Settings := { Settings.default with phase := .static, env := some env }
    let defined : Operation := .env (·.define y.declarationName .null .none)
    let t : Terms := ⟨.run, .default, s.stackLimit⟩
    ∃ u start, u.code = (assemble p).toArray ∧ ofSettings u s = .ok start ∧
      start.terms.onUninitialized = .reject ∧
      (start.under t).stepsAmid .quiet 2 = (start.stepsAmid .quiet 2).under t ∧
      start.outcomeAmid .quiet 2 = .error (.usedBeforeInitialization y) ∧
      (start.under t).outcomeAmid .quiet 2 = .ok .proceed ∧
      (((start.after [defined]).under t).runAmid .quiet).1 = .ok .null := by
  intro y p env s defined t
  obtain ⟨templates, -, hd⟩ :=
    Draft.exists_templates .new ⟨#[⟨⟨1⟩, []⟩, y], by decide⟩ #[.int 7] p (by decide) rfl
  let u : CodeUnit := ⟨_, hd⟩
  let start : Machine :=
    ⟨⟨u, .static, none, none⟩, ⟨.empty s.stackLimit, env⟩, 0, none, []⟩
  let later := start.after [defined]
  have hgo : ∀ j < 2, start.outcomeAmid .quiet j = .ok .proceed := by
    refine Nat.forall_lt_succ_right.mpr ⟨Nat.forall_lt_succ_right.mpr ⟨by simp, ?_⟩, ?_⟩ <;> cbv
  have hlater : ∀ j < 3, later.outcomeAmid .quiet j = .ok .proceed := by
    refine Nat.forall_lt_succ_right.mpr ⟨Nat.forall_lt_succ_right.mpr
      ⟨Nat.forall_lt_succ_right.mpr ⟨by simp, ?_⟩, ?_⟩, ?_⟩ <;> cbv
  have hend : later.outcomeAmid .quiet 3 = (Except.ok Value.null).map .finished := by cbv
  have hread : start.outcomeAmid .quiet 2 = .error (.usedBeforeInitialization y) := by cbv
  have hrun := runAmid_of_steps hlater hend
  obtain ⟨m, hok, -, h⟩ := phase_and_policy_show_in_reads_only u s
  obtain rfl : start = m := Except.ok.inj hok
  obtain ⟨hsame, -, -⟩ := h [] .run .default .quiet rfl
  obtain ⟨-, -, hruns⟩ := h [defined] .run .default .quiet rfl
  obtain ⟨hstate, -⟩ := hsame 2 fun j hj x hx => by cases (hgo j hj).symm.trans hx
  have hrun' : ((later.under t).runAmid .quiet).1 = .ok .null := by
    have := hruns fun x hx => by cases (congrArg Prod.fst hrun).symm.trans hx
    exact (congrArg Prod.fst this).trans (congrArg Prod.fst hrun)
  exact ⟨u, start, rfl, hok, rfl, hstate, hread, by cbv, hrun'⟩

/-! ## The limit of the stack -/

theorem ofSettings_withLimit (h : ofSettings u s = .ok m) (limit : Nat) :
    ofSettings u { s with stackLimit := limit } = .ok (m.under { m.terms with limit }) := by
  have henv : ({ s with stackLimit := limit } : Settings).environment u = s.environment u := rfl
  unfold ofSettings at h ⊢
  rw [henv]
  cases hs : s.environment u with
  | error e =>
    rw [hs] at h
    cases h
  | ok env =>
    rw [hs] at h
    cases h
    rfl

theorem limit_invariant (limit : Nat) :
    Invariant fun m => m.toState.Fits ∧ m.stack.limit = limit where
  step m h := ⟨fits_invariant.step m h.1, (congrArg Terms.limit (terms_step h.1)).trans h.2⟩
  rewind m h := ⟨fits_invariant.rewind m h.1, h.2⟩
  phase _ _ h := h
  event m e h :=
    ⟨fits_invariant.event m e h.1, (congrArg Terms.limit (m.terms_amid [e])).trans h.2⟩
  env _ _ h := h

theorem length_values_le {limit : Nat} (h : m.toState.Fits ∧ m.stack.limit = limit) :
    m.stack.values.length ≤ limit := by
  rw [← m.stack.size_eq, ← h.2]
  exact h.1

/-- For every unit and all settings there is a machine, and a larger limit makes the same machine but
for its limit. Whatever the host has done with it, never are there more operands than the limit says;
under the larger limit all else is the same after every step and each step comes to the same, as long
as none overflows the smaller one; and a step that does is that of an instruction that adds an operand
to as many as the smaller limit says. So a run that does not overflow comes to the same, and leaves the
machine the same, with every larger limit. -/
theorem limit_shows_in_overflow_only (u : CodeUnit) (s : Settings) (hle : s.stackLimit ≤ limit) :
    ∃ start, ofSettings u s = .ok start ∧
      ofSettings u { s with stackLimit := limit } = .ok (start.under { start.terms with limit }) ∧
      ∀ ops w,
        let m := start.after ops
        let t := { m.terms with limit }
        (∀ k, (m.stepsAmid w k).stack.values.length ≤ s.stackLimit ∧
          ((m.under t).stepsAmid w k).stack.values.length ≤ limit) ∧
        (∀ k, (∀ j < k, m.outcomeAmid w j ≠ .error (.operandStackOverflow s.stackLimit)) →
          (m.under t).stepsAmid w k = (m.stepsAmid w k).under t ∧
            (m.outcomeAmid w k ≠ .error (.operandStackOverflow s.stackLimit) →
              (m.under t).outcomeAmid w k = m.outcomeAmid w k)) ∧
        (∀ k full, m.outcomeAmid w k = .error (.operandStackOverflow full) →
          full = s.stackLimit ∧ (m.stepsAmid w k).stack.values.length = s.stackLimit ∧
            ∃ i, decodeAt u.code (m.stepsAmid w k).pc = .ok i ∧ i.addsOperand = true) ∧
        ((m.runAmid w).1 ≠ .error (.operandStackOverflow s.stackLimit) →
          (m.under t).runAmid w = ((m.runAmid w).1, (m.runAmid w).2.under t)) := by
  obtain ⟨start, hok, hcontext, -, hstack, -⟩ := ofSettings_eq_ok u s
  refine ⟨start, hok, ofSettings_withLimit hok limit, fun ops w => ?_⟩
  intro m t
  have hm : m.toState.Fits ∧ m.stack.limit = s.stackLimit :=
    (limit_invariant s.stackLimit).after ⟨.of_empty hstack, by rw [hstack]; rfl⟩ ops
  have hwider : m.stack.limit ≤ limit := Nat.le_trans (Nat.le_of_eq hm.2) hle
  have hm' : (m.under t).toState.Fits ∧ (m.under t).stack.limit = limit :=
    ⟨Nat.le_trans hm.1 hwider, rfl⟩
  have hunit : m.unit = u := (unit_invariant u).after (congrArg Context.unit hcontext) ops
  have hwithin : m.terms.Within t := ⟨.inr rfl, hwider⟩
  -- phase and policy are the same, so only an overflow tells the terms apart
  have hsilent (e) (hne : e ≠ .operandStackOverflow s.stackLimit) : ¬m.terms.Tell t e := by
    rintro (hreads | -)
    · exact hreads rfl
    · exact hne (congrArg EvalError.operandStackOverflow hm.2)
  refine ⟨fun k => ⟨?_, ?_⟩, fun k hno => ?_, fun k full hfull => ?_, fun hno => ?_⟩
  · exact length_values_le ((limit_invariant s.stackLimit).stepsAmid hm w k)
  · exact length_values_le ((limit_invariant limit).stepsAmid hm' w k)
  · have hbefore : ∀ j < k, ∀ e, m.outcomeAmid w j = .error e → ¬m.terms.Tell t e :=
      fun j hj e he => hsilent e fun hx => hno j hj (hx ▸ he)
    refine ⟨stepsAmid_under hm.1 hwithin hbefore, fun hlast => ?_⟩
    exact outcomeAmid_under hm.1 hwithin hbefore fun e he => hsilent e fun hx => hlast (hx ▸ he)
  · obtain ⟨i, hi, hdenies⟩ := outcomeAmid_denies hm.1 hfull rfl
    obtain ⟨-, hlimit⟩ := (limit_invariant s.stackLimit).stepsAmid hm w k
    rw [hunit] at hi hdenies
    cases hdenies with
    | push hadds hlength => exact ⟨hlimit, hlength.trans hlimit, i, hi, hadds⟩
  · exact runAmid_under hm.1 hwithin fun e he => hsilent e fun hx => hno (hx ▸ he)

/-- The program reads a binding above another operand. Under either limit it fails for want of the
binding; once the host has defined it, the read overflows a limit of one and not one of two. -/
theorem read_above_operand_shows :
    let x : Multiname := ⟨⟨1⟩, []⟩
    let p : List Instruction := [.constant 0, .lexicalRead 0]
    let s : Settings := { Settings.default with env := some (.ofBase .empty), stackLimit := 1 }
    let defined : Operation := .env (·.define x.declarationName .null .none)
    let t : Terms := ⟨.run, .default, 2⟩
    ∃ u start, u.code = (assemble p).toArray ∧ ofSettings u s = .ok start ∧
      ofSettings u { s with stackLimit := 2 } = .ok (start.under t) ∧
      ((start.under t).runAmid .quiet).1 = .error (.unresolvedBinding x) ∧
      let later := start.after [defined]
      (later.under t).stepsAmid .quiet 1 = (later.stepsAmid .quiet 1).under t ∧
        later.outcomeAmid .quiet 1 = .error (.operandStackOverflow 1) ∧
        (later.stepsAmid .quiet 1).stack.values.length = 1 ∧
        (later.under t).outcomeAmid .quiet 1 = .ok .proceed := by
  intro x p s defined t
  obtain ⟨templates, -, hd⟩ :=
    Draft.exists_templates .new ⟨#[x], by decide⟩ #[.int 7] p (by decide) rfl
  let u : CodeUnit := ⟨_, hd⟩
  let start : Machine :=
    ⟨⟨u, .run, none, none⟩, ⟨.empty s.stackLimit, .ofBase .empty⟩, 0, none, []⟩
  let later := start.after [defined]
  have hgo : ∀ j < 1, start.outcomeAmid .quiet j = .ok .proceed :=
    Nat.forall_lt_succ_right.mpr ⟨by simp, by cbv⟩
  have hlater : ∀ j < 1, later.outcomeAmid .quiet j = .ok .proceed :=
    Nat.forall_lt_succ_right.mpr ⟨by simp, by cbv⟩
  have hend : start.outcomeAmid .quiet 1 =
      (Except.error (.unresolvedBinding x)).map .finished := by cbv
  have hover : later.outcomeAmid .quiet 1 = .error (.operandStackOverflow 1) := by cbv
  have hrun := runAmid_of_steps hgo hend
  obtain ⟨m, hok, hwider, h⟩ := limit_shows_in_overflow_only u s (show s.stackLimit ≤ 2 by decide)
  obtain rfl : start = m := Except.ok.inj hok
  obtain ⟨-, -, -, hruns⟩ := h [] .quiet
  obtain ⟨-, hsame, hfull, -⟩ := h [defined] .quiet
  obtain ⟨hstate, -⟩ := hsame 1 fun j hj hx => by cases (hlater j hj).symm.trans hx
  obtain ⟨-, hlength, -⟩ := hfull 1 1 hover
  have hrun' : ((start.under t).runAmid .quiet).1 = .error (.unresolvedBinding x) := by
    have := hruns fun hx => by cases (congrArg Prod.fst hrun).symm.trans hx
    exact (congrArg Prod.fst this).trans (congrArg Prod.fst hrun)
  exact ⟨u, start, rfl, hok, hwider, hrun', hstate, hover, hlength, by cbv⟩

end Machine

end ScopeMachine
