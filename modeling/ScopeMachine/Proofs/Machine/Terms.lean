import ScopeMachine.Proofs.Machine.Recovery
import ScopeMachine.Proofs.Machine.StepByStep

/-!
# The terms of a machine

Phase, policy and stack limit are the terms under which a machine runs. They do not change by its
steps, and they decide two things only: what becomes of the read of an uninitialized binding, and
which push is one too many. So a machine and the same one under wider terms do the same, step by
step, until one of the two errors tells them apart (`step_under`, `stepsAmid_under`).
-/

namespace ScopeMachine

open Instruction

structure Terms where
  phase : Phase
  policy : Policy
  /-- Most operands on the stack. -/
  limit : Nat
  deriving DecidableEq, Repr

namespace Terms

def onUninitialized (t : Terms) : UninitializedRead := t.policy.onUninitialized t.phase

/-- What the first terms allow, the second allow as well, and to the same effect. -/
structure Within (t t' : Terms) : Prop where
  reads : t.onUninitialized = .reject ∨ t.onUninitialized = t'.onUninitialized
  limit : t.limit ≤ t'.limit

/-- Errors under the first terms that do not arise under the second. -/
inductive Tell (t t' : Terms) : EvalError → Prop
  | read : t.onUninitialized ≠ t'.onUninitialized → Tell t t' (.usedBeforeInitialization m)
  | push : t.limit < t'.limit → Tell t t' (.operandStackOverflow t.limit)

theorem Within.refl (t : Terms) : t.Within t := ⟨.inr rfl, Nat.le_refl _⟩

theorem not_tell_self (t : Terms) (e : EvalError) : ¬t.Tell t e := by
  rintro (hne | hlt)
  · exact hne rfl
  · exact Nat.lt_irrefl _ hlt

end Terms

/-! ## Other terms -/

def OperandStack.withLimit (s : OperandStack) (limit : Nat) : OperandStack := { s with limit }

def State.under (s : State) (t : Terms) : State :=
  ⟨s.stack.withLimit t.limit, s.env.withPolicy t.policy⟩

def Context.under (c : Context) (t : Terms) : Context := { c with phase := t.phase }

def Effect.under (effect : Effect) (t : Terms) : Effect :=
  { effect with state := effect.state.under t }

def Context.terms (c : Context) (s : State) : Terms := ⟨c.phase, s.env.policy, s.stack.limit⟩

namespace Machine

def terms (m : Machine) : Terms := m.toContext.terms m.toState

/-- The machine under other terms. All else is the same: position, operands, frames, hosts, flag and
log. -/
def under (m : Machine) (t : Terms) : Machine :=
  { m with toContext := m.toContext.under t, toState := m.toState.under t }

end Machine

/-- The second effect is the first one under other terms, unless the first is an error that tells the
terms apart. -/
def Effect.SameUnder (effect : Effect) (t t' : Terms) (effect' : Effect) : Prop :=
  (∃ e, effect.result = .error e ∧ t.Tell t' e) ∨ effect' = effect.under t'

/-! ## Scopes under another policy -/

namespace Environment

/-- The policy is asked only where a reference resolves to a binding that is not initialized. -/
theorem read_withPolicy (env : Environment) (policy : Policy) (m : Multiname) (phase phase' : Phase)
    (ambient : Option Ambient) :
    (env.read m phase ambient = ⟨env.uninitialized m phase, none⟩ ∧
      (env.withPolicy policy).read m phase' ambient =
        ⟨(env.withPolicy policy).uninitialized m phase', none⟩) ∨
    (env.withPolicy policy).read m phase' ambient = env.read m phase ambient := by
  have hfind : (env.withPolicy policy).find? m = env.find? m := rfl
  unfold read
  rw [hfind]
  cases env.find? m with
  | none => exact .inr rfl
  | some b => cases hb : b.slot.initialized <;> simp [hb]

theorem write_withPolicy (env : Environment) (policy : Policy) (m : Multiname) (v : Value)
    (declares : Bool) :
    (env.withPolicy policy).write m v declares =
      (env.write m v declares).map (·.withPolicy policy) := by
  have hfind : (env.withPolicy policy).find? m = env.find? m := rfl
  have hmodify (n : Nat) (change : Frame → Frame) :
      (env.withPolicy policy).modifyFrame n change =
        (env.modifyFrame n change).withPolicy policy := by
    cases n <;> rfl
  unfold Environment.write
  rw [hfind]
  cases env.find? m with
  | none => cases declares <;> rfl
  | some b =>
    simp only [hmodify]
    split <;> rfl

theorem read_usedBeforeInitialization {env : Environment}
    (h : (env.read m phase ambient).result = .error (.usedBeforeInitialization x)) :
    x = m ∧ ∃ b, env.find? m = some b ∧ b.slot.initialized = false := by
  unfold read uninitialized at h
  split at h
  next b hb =>
    split at h
    · cases h
    next hnot =>
      split at h <;> cases h
      exact ⟨rfl, b, hb, by simpa using hnot⟩
  next =>
    split at h
    · cases h
    next a =>
      cases ha : a.answer m <;> simp [ha, Except.mapError] at h

end Environment

/-! ## Changes of the state -/

namespace State

variable {s : State} {t : Terms}

theorem push_under (c : Context) (h : (c.terms s).Within t) (v : Value) (lookup : Option Lookup) :
    (Effect.ofChange (s.push v) lookup).SameUnder (c.terms s) t
      (.ofChange ((s.under t).push v) lookup) := by
  obtain ⟨phase, policy, limit⟩ := t
  have hle : s.stack.limit ≤ limit := h.limit
  unfold push OperandStack.push
  by_cases hroom : s.stack.size < s.stack.limit
  · have hroom' : s.stack.size < limit := Nat.lt_of_lt_of_le hroom hle
    rw [if_pos hroom]
    refine .inr ?_
    simp only [under, OperandStack.withLimit, hroom', if_true]
    rfl
  · rw [if_neg hroom]
    rcases Nat.lt_or_eq_of_le hle with hlt | rfl
    · exact .inl ⟨_, rfl, .push hlt⟩
    · -- one limit, and the stack is full under both terms
      refine .inr ?_
      simp only [under, OperandStack.withLimit, hroom, if_false]
      rfl

theorem drop_under (s : State) (t : Terms) (pc : Nat) :
    (s.under t).drop pc = ((s.drop pc).1, (s.drop pc).2.under t) := by
  obtain ⟨⟨values, limit, size, hsize⟩, env⟩ := s
  cases values <;> rfl

/-- There is room in the place of the operand, under these terms and under the wider ones. -/
theorem replaceTop_under (hs : s.Fits) (htop : s.stack.top? = some base)
    (hle : s.stack.limit ≤ t.limit) (pc : Nat) (v : Value) :
    (s.under t).replaceTop pc v = ((s.replaceTop pc v).1, (s.replaceTop pc v).2.under t) := by
  obtain ⟨⟨values, limit, size, hsize⟩, env⟩ := s
  cases values with
  | nil => cases htop
  | cons w rest =>
    have hroom : size - 1 < limit := by
      have : size ≤ limit := hs
      simp only [List.length_cons] at hsize
      omega
    have hroom' : size - 1 < t.limit := Nat.lt_of_lt_of_le hroom hle
    simp [replaceTop, drop, under, OperandStack.withLimit, OperandStack.pop, push,
      OperandStack.push, hroom, hroom']

theorem writeTop_under (s : State) (t : Terms) (pc : Nat) (m : Multiname) (declares : Bool) :
    (s.under t).writeTop pc m declares =
      ((s.writeTop pc m declares).1, (s.writeTop pc m declares).2.under t) := by
  have htop : (s.under t).stack.top? = s.stack.top? := rfl
  have hwrite (v : Value) : (s.under t).env.write m v declares =
      (s.env.write m v declares).map (·.withPolicy t.policy) :=
    s.env.write_withPolicy ..
  unfold writeTop
  rw [htop]
  cases s.stack.top? with
  | none => rfl
  | some v =>
    simp only [hwrite]
    cases s.env.write m v declares <;> rfl

theorem leave_under (s : State) (t : Terms) :
    (s.under t).leave = (s.leave.1, s.leave.2.under t) := by
  obtain ⟨stack, innermost, outer, policy⟩ := s
  cases outer <;> rfl

theorem takeResult_under (s : State) (t : Terms) :
    (s.under t).takeResult = (s.takeResult.1, s.takeResult.2.under t) := by
  obtain ⟨⟨values, limit, size, hsize⟩, env⟩ := s
  cases values <;> rfl

end State

/-! ## Instructions -/

namespace Effect

theorem SameUnder.fail (e : EvalError) (s : State) (lookup : Option Lookup) :
    SameUnder ⟨.error e, s, lookup⟩ t t' ⟨.error e, s.under t', lookup⟩ :=
  .inr rfl

theorem SameUnder.ofChange {change change' : Except EvalError Unit × State}
    (h : change' = (change.1, change.2.under t')) (lookup : Option Lookup) :
    (Effect.ofChange change lookup).SameUnder t t' (.ofChange change' lookup) := by
  subst h
  exact .inr rfl

end Effect

namespace Context

variable {c : Context} {s : State} {t : Terms}

theorem withMultiname_under {effect effect' : Multiname → Effect}
    (h : ∀ m, (effect m).SameUnder (c.terms s) t (effect' m)) :
    (c.withMultiname n s effect).SameUnder (c.terms s) t
      ((c.under t).withMultiname n (s.under t) effect') := by
  have hget : (c.under t).unit = c.unit := rfl
  unfold withMultiname
  rw [hget]
  cases c.unit.multinames.get n with
  | error e => exact .fail ..
  | ok m => exact h m

theorem dotRead_under (hs : s.Fits) (h : (c.terms s).Within t) (pc : Nat) (m : Multiname) :
    (c.dotRead pc m s).SameUnder (c.terms s) t ((c.under t).dotRead pc m (s.under t)) := by
  have htop : (s.under t).stack.top? = s.stack.top? := rfl
  have hresolver : (c.under t).resolver = c.resolver := rfl
  unfold dotRead
  rw [htop, hresolver]
  cases hbase : s.stack.top? with
  | none => exact .fail ..
  | some base =>
    cases c.resolver with
    | none => exact .fail ..
    | some host =>
      simp only
      cases host.answer base m with
      | error e => exact .fail ..
      | ok v => exact .ofChange (s.replaceTop_under hs hbase h.limit pc v) _

theorem lexicalRead_under (h : (c.terms s).Within t) (m : Multiname) :
    (c.lexicalRead m s).SameUnder (c.terms s) t ((c.under t).lexicalRead m (s.under t)) := by
  have hboth := s.env.read_withPolicy t.policy m c.phase t.phase c.ambient
  have hunder : (s.under t).env.read m (c.under t).phase (c.under t).ambient =
      (s.env.withPolicy t.policy).read m t.phase c.ambient := rfl
  simp only [lexicalRead, hunder]
  -- phase and policy are asked only where the binding is not initialized
  rcases hboth with ⟨hread, hread'⟩ | hsame
  · have hmine : s.env.policy.onUninitialized c.phase = (c.terms s).onUninitialized := rfl
    have hother : (s.env.withPolicy t.policy).policy.onUninitialized t.phase =
        t.onUninitialized := rfl
    rw [hread, hread']
    simp only [Environment.uninitialized, hmine, hother]
    by_cases heq : (c.terms s).onUninitialized = t.onUninitialized
    · rw [heq]
      cases t.onUninitialized with
      | reject => exact .fail ..
      | sentinel => exact s.push_under c h ..
      | undefined => exact s.push_under c h ..
    · -- they differ, so these terms reject what the others let pass
      have hreject := h.reads.resolve_right heq
      rw [hreject]
      exact .inl ⟨_, rfl, .read heq⟩
  · rw [hsame]
    cases (s.env.read m c.phase c.ambient).result with
    | error e => exact .fail ..
    | ok v => exact s.push_under c h ..

theorem execute_under (hs : s.Fits) (h : (c.terms s).Within t) (pc : Nat) (i : Instruction) :
    (c.execute pc i s).SameUnder (c.terms s) t ((c.under t).execute pc i (s.under t)) := by
  have hunit : (c.under t).unit = c.unit := rfl
  cases i with
  | constant n =>
    simp only [execute, hunit]
    cases c.unit.constant n with
    | error e => exact .fail ..
    | ok k => exact s.push_under c h ..
  | pop => exact .ofChange (s.drop_under t pc) none
  | multiname n => exact withMultiname_under fun _ => s.push_under c h ..
  | dotRead n => exact withMultiname_under fun m => dotRead_under hs h pc m
  | lexicalRead n => exact withMultiname_under fun m => lexicalRead_under h m
  | lexicalWrite n => exact withMultiname_under fun m => .ofChange (s.writeTop_under t pc m true) none
  | lexicalAssign n =>
    exact withMultiname_under fun m => .ofChange (s.writeTop_under t pc m false) none
  | pushFrame n =>
    simp only [execute, hunit]
    cases c.unit.templates.get n with
    | error e => exact .fail ..
    | ok template => exact .ofChange rfl none
  | popFrame => exact .ofChange (s.leave_under t) none
  | ret =>
    refine .inr ?_
    simp only [execute, s.takeResult_under t]
    rfl

end Context

/-! ## Steps and runs -/

namespace Machine

variable {m : Machine} {t : Terms} {w : Course}

@[simp] theorem terms_under (m : Machine) (t : Terms) : (m.under t).terms = t := rfl

@[simp] theorem under_terms (m : Machine) : m.under m.terms = m := rfl

theorem amid_under (m : Machine) (t : Terms) (events : List Event) :
    (m.under t).amid events = (m.amid events).under t := by
  induction events generalizing m with
  | nil => rfl
  | cons e events ih =>
    have hhappen : (m.under t).happen e = (m.happen e).under t := by cases e <;> rfl
    rw [amid, List.foldl_cons, ← amid, hhappen, ih]
    rfl

theorem commit_under (m : Machine) (t : Terms) (width : Nat) (effect : Effect) :
    (m.under t).commit width (effect.under t) =
      ((m.commit width effect).1, (m.commit width effect).2.under t) := by
  simp only [commit, note_eq, Effect.under]
  split <;> rfl

/-- A step under wider terms is the same, unless it is the error that tells the terms apart. -/
theorem step_under (hm : m.toState.Fits) (h : m.terms.Within t) :
    (∃ e, m.step.1 = .error e ∧ m.terms.Tell t e) ∨
      (m.under t).step = (m.step.1, m.step.2.under t) := by
  have hflag : (m.under t).isInterrupted = m.isInterrupted := rfl
  have hunit : (m.under t).unit = m.unit := rfl
  have hpc : (m.under t).pc = m.pc := rfl
  unfold step
  rw [hflag, hunit, hpc]
  split
  · exact .inr rfl
  split
  · cases decodeAt m.unit.code m.pc with
    | error e => exact .inr rfl
    | ok i =>
      simp only [result_commit]
      rcases m.toContext.execute_under hm h m.pc i with htell | hsame
      · exact .inl htell
      · rw [← result_commit m i.width, ← commit_under, ← hsame]
        exact .inr rfl
  · exact .inr rfl

/-! A machine under its own terms is itself; so it keeps them. -/

@[simp] theorem terms_amid (m : Machine) (events : List Event) :
    (m.amid events).terms = m.terms := by
  have hsame := m.amid_under m.terms events
  rw [under_terms] at hsame
  rw [hsame, terms_under]

theorem terms_step (hm : m.toState.Fits) : m.step.2.terms = m.terms := by
  rcases step_under hm (.refl m.terms) with ⟨e, -, htell⟩ | hsame
  · exact absurd htell (m.terms.not_tell_self e)
  · rw [under_terms] at hsame
    rw [congrArg Prod.snd hsame, terms_under]

theorem terms_stepsAmid (hm : m.toState.Fits) (w : Course) (k : Nat) :
    (m.stepsAmid w k).terms = m.terms := by
  induction k with
  | zero => rfl
  | succ k ih =>
    have hfits := fits_invariant.amid (fits_invariant.stepsAmid hm w k) (w k)
    rw [stepsAmid, terms_step hfits, terms_amid, ih]

section Wider

variable (hm : m.toState.Fits) (h : m.terms.Within t)
include hm h

theorem step_stepsAmid_under (w : Course) (k : Nat) :
    (∃ e, m.outcomeAmid w k = .error e ∧ m.terms.Tell t e) ∨
      (((m.stepsAmid w k).under t).amid (w k)).step =
        (m.outcomeAmid w k, (m.stepsAmid w (k + 1)).under t) := by
  have hfits := fits_invariant.amid (fits_invariant.stepsAmid hm w k) (w k)
  have hterms : ((m.stepsAmid w k).amid (w k)).terms = m.terms := by
    rw [terms_amid, terms_stepsAmid hm]
  rw [amid_under, ← hterms]
  exact step_under hfits (hterms ▸ h)

/-- Side by side with the machine under wider terms: as long as no error tells the terms apart, all
else is the same after every step. -/
theorem stepsAmid_under (hno : ∀ j < k, ∀ e, m.outcomeAmid w j = .error e → ¬m.terms.Tell t e) :
    (m.under t).stepsAmid w k = (m.stepsAmid w k).under t := by
  induction k with
  | zero => rfl
  | succ k ih =>
    rw [stepsAmid, ih fun j hj => hno j (Nat.lt_succ_of_lt hj)]
    rcases step_stepsAmid_under hm h w k with ⟨e, he, htell⟩ | hstep
    · exact absurd htell (hno k (Nat.lt_succ_self k) e he)
    · rw [hstep]

theorem outcomeAmid_under
    (hno : ∀ j < k, ∀ e, m.outcomeAmid w j = .error e → ¬m.terms.Tell t e)
    (hlast : ∀ e, m.outcomeAmid w k = .error e → ¬m.terms.Tell t e) :
    (m.under t).outcomeAmid w k = m.outcomeAmid w k := by
  rw [outcomeAmid, stepsAmid_under hm h hno]
  rcases step_stepsAmid_under hm h w k with ⟨e, he, htell⟩ | hstep
  · exact absurd htell (hlast e he)
  · rw [hstep]

/-- A run comes to the same under wider terms, unless it ends in the error that tells them apart. -/
theorem runAmid_under (hno : ∀ e, (m.runAmid w).1 = .error e → ¬m.terms.Tell t e) :
    (m.under t).runAmid w = ((m.runAmid w).1, (m.runAmid w).2.under t) := by
  obtain ⟨k, hgo, hend, hlast⟩ := m.runAmid_eq_steps w
  -- the run is so many steps, and none of them ends in an error that tells the terms apart
  have hbefore : ∀ j < k, ∀ e, m.outcomeAmid w j = .error e → ¬m.terms.Tell t e := by
    intro j hj e he
    rw [hgo j hj] at he
    cases he
  have hthen : ∀ e, m.outcomeAmid w k = .error e → ¬m.terms.Tell t e := by
    intro e he
    rw [hend] at he
    cases hr : (m.runAmid w).1 with
    | error e' =>
      rw [hr] at he
      cases he
      exact hno e hr
    | ok v =>
      rw [hr] at he
      cases he
  rw [← hlast, ← stepsAmid_under hm h (Nat.forall_lt_succ_right.mpr ⟨hbefore, hthen⟩)]
  refine runAmid_of_steps (fun j hj => ?_) ?_
  · rw [outcomeAmid_under hm h (fun i hi => hbefore i (Nat.lt_trans hi hj)) (hbefore j hj), hgo j hj]
  · rw [outcomeAmid_under hm h hbefore hthen, hend]

end Wider

end Machine

end ScopeMachine
