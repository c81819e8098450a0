import ScopeMachine.Proofs.Code.Assembly
import ScopeMachine.Proofs.Environment.Places
import ScopeMachine.Proofs.Machine.Performing
import ScopeMachine.Proofs.Machine.StepByStep

/-!
# Levels

Code runs straight on, and what an instruction adds or discards does not depend on what it works on. So
the position alone settles how many operands there are, and how many scopes more than at first, whatever
the data and the hosts are. Where one machine wants for an operand, no other over the same unit comes
any further: `position_settles_levels`.
-/

namespace ScopeMachine

open Instruction

def Instruction.takesOperand : Instruction → Bool
  | .pop | .dotRead _ | .lexicalWrite _ | .lexicalAssign _ => true
  | .constant _ | .multiname _ | .lexicalRead _ | .pushFrame _ | .popFrame | .ret => false

/-! ## Scenes -/

namespace Environment

theorem depth_of_pop {env : Environment} (h : env.pop = .ok (f, below)) :
    env.depth = below.depth + 1 := by
  unfold pop at h
  split at h
  · cases h
  next houter =>
    cases h
    simp [depth, houter]

theorem depth_of_write {env : Environment} (h : env.write m v declares = .ok written) :
    written.depth = env.depth := by
  unfold write at h
  split at h <;> split at h <;> cases h <;> exact depth_modifyFrame ..

end Environment

/-- There are as many operands as the instructions make of none, and as many scopes as they make of
the first `depth`. -/
structure Scene.LevelBehind (s : Scene) (depth : Nat) (passed : List Instruction) : Prop where
  operands : (s.operands.length : Int) = operandBalance passed
  scopes : (s.env.depth : Int) - depth = scopeBalance passed

namespace Context.Performed

variable {c : Context} {s next : Scene}

theorem takesOperand (h : c.Performed limit s i next) (hi : i.takesOperand = true) :
    s.operands ≠ [] := by
  cases h with
  | add hv => cases hv <;> cases hi
  | pop htop => simp [htop]
  | dotRead _ htop => simp [htop]
  | lexicalWrite _ htop => simp [htop]
  | lexicalAssign _ htop => simp [htop]
  | pushFrame => cases hi
  | popFrame => cases hi
  | ret => cases hi

theorem length_operands (h : c.Performed limit s i next) (hret : i ≠ .ret) :
    (next.operands.length : Int) = s.operands.length + operandBalance [i] := by
  cases h with
  -- a constant, a reference and the value of a binding are one operand each
  | add hv => cases hv <;> simp [operandBalance_singleton, addsOperand]
  | @pop _ rest htop =>
    show (rest.length : Int) = s.operands.length + -1
    rw [htop, List.length_cons]
    omega
  | dotRead _ htop => simp [htop, operandBalance_singleton, addsOperand]
  | ret => exact absurd rfl hret
  | _ => simp [operandBalance_singleton, addsOperand]

theorem depth_env (h : c.Performed limit s i next) :
    (next.env.depth : Int) = s.env.depth + scopeBalance [i] := by
  cases h with
  | add hv => cases hv <;> simp [scopeBalance_singleton, entersScope]
  | lexicalWrite _ _ hwrite | lexicalAssign _ _ hwrite =>
    simp [Environment.depth_of_write hwrite, scopeBalance_singleton, entersScope]
  | pushFrame => rfl
  | @popFrame _ env hpop =>
    show (env.depth : Int) = s.env.depth + -1
    rw [Environment.depth_of_pop hpop]
    omega
  | _ => simp [scopeBalance_singleton, entersScope]

theorem levelBehind (h : c.Performed limit s i next) (hret : i ≠ .ret)
    (hs : s.LevelBehind depth passed) : next.LevelBehind depth (passed ++ [i]) where
  operands := by rw [operandBalance_append, h.length_operands hret, hs.operands]
  scopes := by
    have := hs.scopes
    rw [scopeBalance_append, h.depth_env]
    omega

end Context.Performed

/-! ## Wanting an operand -/

namespace State

variable {s : State}

theorem values_of_top? (h : s.stack.top? = none) : s.stack.values = [] :=
  List.head?_eq_none_iff.mp h

theorem drop_underflow (h : (s.drop pc).1 = .error e) : s.stack.values = [] := by
  unfold drop at h
  split at h
  next hpop => exact (OperandStack.pop_eq_error hpop).1
  · cases h

theorem replaceTop_underflow (h : (s.replaceTop pc v).1 = .error (.operandStackUnderflow stop)) :
    s.stack.values = [] := by
  unfold replaceTop at h
  split at h
  next hdrop => exact drop_underflow (congrArg Prod.fst hdrop)
  · cases push_error h

theorem writeTop_underflow
    (h : (s.writeTop pc m declares).1 = .error (.operandStackUnderflow stop)) :
    s.stack.values = [] := by
  unfold writeTop at h
  split at h
  next htop => exact values_of_top? htop
  split at h
  next hwrite =>
    cases h
    rcases Environment.write_error hwrite with hother | ⟨_, hother⟩ <;> cases hother
  · cases h

end State

namespace Context

variable {c : Context} {s : State}

theorem dotRead_underflow (h : (c.dotRead pc m s).result = .error (.operandStackUnderflow stop)) :
    s.stack.values = [] := by
  unfold dotRead at h
  split at h
  next htop => exact State.values_of_top? htop
  split at h
  · cases h
  split at h
  · cases h
  · exact State.replaceTop_underflow (Effect.ofChange_result_eq_error.mp h)

theorem withMultiname_underflow {effect : Multiname → Effect}
    (h : (c.withMultiname n s effect).result = .error (.operandStackUnderflow stop)) :
    ∃ m, (effect m).result = .error (.operandStackUnderflow stop) := by
  rcases withMultiname_error h with ⟨_, -, hother⟩ | hm
  · cases hother
  · exact hm

/-- Only an instruction that takes an operand wants for one, and only if there is none. -/
theorem execute_underflow (h : (c.execute pc i s).result = .error (.operandStackUnderflow stop)) :
    stop = pc ∧ i.takesOperand = true ∧ s.stack.values = [] := by
  have hstop : stop = pc := by
    rcases execute_error h with ⟨_, -, hother⟩ | hexecution
    · cases hother
    · cases hexecution
      rfl
  refine ⟨hstop, ?_⟩
  -- an instruction that takes no operand has other errors only
  cases i with
  | constant n =>
    simp only [execute] at h
    split at h
    · cases h
    · cases State.push_error (Effect.ofChange_result_eq_error.mp h)
  | pop => exact ⟨rfl, State.drop_underflow (Effect.ofChange_result_eq_error.mp h)⟩
  | multiname n =>
    obtain ⟨m, hm⟩ := withMultiname_underflow h
    cases State.push_error (Effect.ofChange_result_eq_error.mp hm)
  | dotRead n =>
    obtain ⟨m, hm⟩ := withMultiname_underflow h
    exact ⟨rfl, dotRead_underflow hm⟩
  | lexicalRead n =>
    obtain ⟨m, hm⟩ := withMultiname_underflow h
    rcases lexicalRead_error hm with hother | hother | hother <;> cases hother
  | lexicalWrite n | lexicalAssign n =>
    obtain ⟨m, hm⟩ := withMultiname_underflow h
    exact ⟨rfl, State.writeTop_underflow (Effect.ofChange_result_eq_error.mp hm)⟩
  | pushFrame n =>
    simp only [execute] at h
    split at h <;> cases h
  | popFrame => cases State.leave_error (Effect.ofChange_result_eq_error.mp h)
  | ret => cases h

end Context

/-! ## Machines -/

theorem CodeUnit.before_span (h : program u = front ++ back) : u.before (span front) = front := by
  rw [before, u.instructions_decode, h, layout_append, List.filter_append,
    List.filter_eq_self.mpr, List.filter_eq_nil_iff.mpr]
  · simp
  · intro x hx
    have := (layout_bounds hx).1
    simp
    omega
  · intro x hx
    have := (layout_bounds hx).2
    simp
    omega

namespace Machine

/-- A machine over the unit that has just been made, or has just been rewound. -/
inductive Fresh (u : CodeUnit) : Machine → Prop
  | built : ofSettings u s = .ok m → Fresh u m
  | rewound (m : Machine) : m.unit = u → Fresh u m.rewind

variable {m n : Machine}

/-- The machine has passed the front part of its program, by going on from one instruction to the
next, and its levels are what that part makes of no operands and `depth` scopes. -/
structure LevelBetween (m : Machine) (depth : Nat) (front back : List Instruction) : Prop where
  between : m.Between front back
  level : m.toState.scene.LevelBehind depth front
  fits : m.toState.Fits
  noReturn : .ret ∉ front

theorem LevelBetween.amid (h : m.LevelBetween depth front back) (events : List Event) :
    (m.amid events).LevelBetween depth front back where
  between := h.between.amid events
  level := by
    rw [toState_amid]
    exact h.level
  fits := by
    rw [toState_amid]
    exact h.fits
  noReturn := h.noReturn

/-- A step fails and leaves the levels; or it goes on to those behind the next instruction, which had
an operand if it takes one; or it comes to the end of the code, by itself or by a return. -/
theorem LevelBetween.step (h : m.LevelBetween depth front back) :
    (∃ e, m.step.1 = .error e ∧ m.step.2.LevelBetween depth front back) ∨
      (∃ i rest, back = i :: rest ∧ i ≠ .ret ∧
        (i.takesOperand = true → m.stack.values ≠ []) ∧ m.step.1 = .ok .proceed ∧
        m.step.2.LevelBetween depth (front ++ [i]) rest) ∨
      (∃ v, m.step.1 = .ok (.finished v)) ∧ m.step.2.pc = m.unit.code.size ∧
        ∀ i rest, back = i :: rest → i = .ret := by
  obtain ⟨herror, hproceed, hfinished⟩ := h.between.step
  have hfits : m.step.2.toState.Fits := fits_invariant.step m h.fits
  have hend (v) (hv : m.step.1 = .ok (.finished v)) : m.step.2.pc = m.unit.code.size := by
    rw [(hfinished v hv).2, m.unit.span_program]
  -- a step that fails keeps the scene, and one that goes on has performed its instruction
  rcases step_performs h.fits with ⟨e, he, hstate⟩ | ⟨hle, hs⟩ | ⟨i, hi, hs, hperformed⟩
  · refine .inl ⟨e, he, herror e he, ?_, hfits, h.noReturn⟩
    rw [hstate]
    exact h.level
  · refine .inr (.inr ⟨⟨_, congrArg Prod.fst hs⟩, hend _ (congrArg Prod.fst hs), ?_⟩)
    rintro i rest rfl
    have hin : m.pc < m.unit.code.size := h.between.pc_lt_iff.mpr (List.cons_ne_nil i rest)
    omega
  · by_cases hret : i = .ret
    · rw [if_pos hret] at hs
      refine .inr (.inr ⟨⟨_, hs⟩, hend _ hs, ?_⟩)
      rintro j rest rfl
      cases hi.symm.trans h.between.decodeAt
      exact hret
    · rw [if_neg hret] at hs
      obtain ⟨j, rest, rfl, hafter⟩ := hproceed hs
      cases hi.symm.trans h.between.decodeAt
      refine .inr (.inl ⟨i, rest, rfl, hret, hperformed.takesOperand, hs, hafter, ?_, hfits, ?_⟩)
      · exact hperformed.levelBehind hret h.level
      · simpa using ⟨h.noReturn, Ne.symm hret⟩

theorem pc_step_of_end (h : m.pc = m.unit.code.size) : m.step.2.pc = m.pc := by
  unfold step
  split
  · rfl
  · simp [h]

def Levelled (m : Machine) (depth : Nat) : Prop :=
  m.pc = m.unit.code.size ∨ ∃ front back, m.LevelBetween depth front back

theorem Levelled.amid (h : m.Levelled depth) (events : List Event) :
    (m.amid events).Levelled depth := by
  rcases h with hend | ⟨front, back, hm⟩
  · left
    rw [pc_amid, unit_amid, hend]
  · exact .inr ⟨front, back, hm.amid events⟩

theorem Levelled.step (h : m.Levelled depth) : m.step.2.Levelled depth := by
  have hunit : m.step.2.unit = m.unit := congrArg Context.unit m.toContext_step
  rcases h with hend | ⟨front, back, hm⟩
  · left
    rw [pc_step_of_end hend, hunit, hend]
  · rcases hm.step with ⟨e, -, hafter⟩ | ⟨i, rest, -, -, -, -, hafter⟩ | ⟨-, hend, -⟩
    · exact .inr ⟨front, back, hafter⟩
    · exact .inr ⟨_, rest, hafter⟩
    · left
      rw [hend, hunit]

theorem step_underflow (h : m.step.1 = .error (.operandStackUnderflow stop)) :
    stop = m.pc ∧ m.stack.values = [] ∧
      ∃ i, decodeAt m.unit.code m.pc = .ok i ∧ i.takesOperand = true := by
  rcases step_error h with hother | ⟨_, hother⟩ | ⟨i, hi, hfails⟩
  · cases hother
  · cases hother
  · obtain ⟨hstop, htakes, hempty⟩ := Context.execute_underflow hfails
    exact ⟨hstop, hempty, i, hi, htakes⟩

theorem Levelled.step_underflow (h : m.Levelled depth)
    (he : m.step.1 = .error (.operandStackUnderflow stop)) :
    stop = m.pc ∧ ∃ front i rest, m.pc = span front ∧ m.unit.program = front ++ i :: rest ∧
      i.takesOperand = true ∧ operandBalance front = 0 ∧ .ret ∉ front := by
  obtain ⟨hstop, hempty, i, hdecode, hi⟩ := m.step_underflow he
  -- there is an instruction to fail, so the machine is within the code
  have hin : m.pc < m.unit.code.size := by
    have := decodeAt_fits hdecode
    have := i.width_pos
    omega
  refine ⟨hstop, ?_⟩
  rcases h with hend | ⟨front, back, hm⟩
  · omega
  cases back with
  | nil => exact absurd rfl (hm.between.pc_lt_iff.mp hin)
  | cons j rest =>
    cases hdecode.symm.trans hm.between.decodeAt
    have hbalance : operandBalance front = 0 := by
      rw [← hm.level.operands, State.scene, hempty]
      rfl
    exact ⟨front, i, rest, hm.between.2, hm.between.1, hi, hbalance, hm.noReturn⟩

theorem Levelled.pc_of_finished (h : m.Levelled depth) (hs : m.step.1 = .ok (.finished v)) :
    m.step.2.pc = m.unit.code.size := by
  rcases h with hend | ⟨front, back, hm⟩
  · exact (pc_step_of_end hend).trans hend
  · have hafter := hm.between.step.2.2 v hs
    rw [hafter.2, m.unit.span_program]

section Barrier

/-! An instruction that takes an operand where there is none at its level lets no machine pass. -/

variable {barrier : List Instruction}
variable (hprogram : m.unit.program = barrier ++ i :: rest) (hi : i.takesOperand = true)
variable (hnone : operandBalance barrier = 0) (hret : .ret ∉ barrier)
include hprogram hi hnone hret

theorem LevelBetween.step_barrier (h : m.LevelBetween depth front back) (hfront : front <+: barrier) :
    ∃ front' back', m.step.2.LevelBetween depth front' back' ∧ front' <+: barrier := by
  obtain ⟨ahead, rfl⟩ := hfront
  have hback : back = ahead ++ i :: rest := by
    have := h.between.1.symm.trans hprogram
    simpa using this
  subst hback
  rcases h.step with ⟨e, -, hafter⟩ | ⟨j, more, hj, hgo, htakes, -, hafter⟩ | ⟨-, -, hend⟩
  · exact ⟨front, _, hafter, List.prefix_append front ahead⟩
  · cases ahead with
    | nil =>
      -- it stands in front of the barrier, and there the level is zero
      obtain ⟨rfl, rfl⟩ := List.cons.inj hj
      have hlength := h.level.operands
      rw [List.append_nil] at hnone
      rw [hnone] at hlength
      have hempty : m.stack.values = [] := List.length_eq_zero_iff.mp (Int.ofNat.inj hlength)
      exact absurd hempty (htakes hi)
    | cons a ahead =>
      obtain ⟨rfl, rfl⟩ := List.cons.inj hj
      exact ⟨_, _, hafter, ahead, by simp⟩
  · -- only a return comes to the end from here, and there is none in front of the barrier or in it
    cases ahead with
    | nil =>
      obtain rfl := hend i rest rfl
      cases hi
    | cons a ahead =>
      obtain rfl := hend a _ rfl
      simp at hret

theorem LevelBetween.stepsAmid_barrier (h : m.LevelBetween depth [] m.unit.program) (w : Course)
    (k : Nat) : (m.stepsAmid w k).pc ≤ span barrier := by
  have hwithin : (m.stepsAmid w k).unit = m.unit ∧ ∃ front back,
      (m.stepsAmid w k).LevelBetween depth front back ∧ front <+: barrier := by
    refine stepsAmid_induction (P := fun n => n.unit = m.unit ∧ ∃ front back,
      n.LevelBetween depth front back ∧ front <+: barrier) ?_ ?_ ?_ k
    · exact ⟨rfl, [], _, h, List.nil_prefix⟩
    · rintro k n ⟨hunit, front, back, hn, hfront⟩
      exact ⟨(n.unit_amid (w k)).trans hunit, front, back, hn.amid (w k), hfront⟩
    · rintro n ⟨hunit, front, back, hn, hfront⟩
      have hafter : n.step.2.unit = n.unit := congrArg Context.unit n.toContext_step
      rw [← hunit] at hprogram
      exact ⟨hafter.trans hunit, hn.step_barrier hprogram hi hnone hret hfront⟩
  obtain ⟨-, front, back, hn, ahead, rfl⟩ := hwithin
  rw [hn.between.2, span_append]
  exact Nat.le_add_right ..

end Barrier

theorem Fresh.levelBetween (h : Fresh u m) :
    m.unit = u ∧ m.LevelBetween m.env.depth [] m.unit.program := by
  cases h with
  | @built s _ hok =>
    obtain ⟨start, hstart, hcontext, hpc, hstack, -⟩ := ofSettings_eq_ok u s
    cases hok.symm.trans hstart
    refine ⟨congrArg Context.unit hcontext, ⟨rfl, hpc⟩, ⟨?_, ?_⟩, .of_empty hstack, by simp⟩
    · simp [State.scene, hstack, OperandStack.empty]
    · simp [State.scene]
  | rewound m hunit =>
    refine ⟨hunit, ⟨rfl, rfl⟩, ⟨rfl, ?_⟩, Nat.zero_le _, by simp⟩
    simp [State.scene]

theorem Fresh.levelled (h : Fresh u m) (w : Course) (k : Nat) :
    (m.stepsAmid w k).Levelled m.env.depth :=
  stepsAmid_induction (P := fun n => n.Levelled m.env.depth) (.inr ⟨_, _, h.levelBetween.2⟩)
    (fun k _ hn => hn.amid (w k)) (fun _ hn => hn.step) k

/-- The levels of a machine are the balances of what stands in front of its position. -/
theorem Fresh.levels (h : Fresh u m) (hin : (m.stepsAmid w k).pc < u.code.size) :
    (m.stepsAmid w k).toState.scene.LevelBehind m.env.depth (u.before (m.stepsAmid w k).pc) := by
  have hunit : (m.stepsAmid w k).unit = u := (m.unit_stepsAmid w k).trans h.levelBetween.1
  rcases h.levelled w k with hend | ⟨front, back, hm⟩
  · rw [hunit] at hend
    omega
  · have hprogram := hm.between.1
    rw [hunit] at hprogram
    rw [hm.between.2, CodeUnit.before_span hprogram]
    exact hm.level

theorem Fresh.underflow (hm : Fresh u m) (hn : Fresh u n)
    (he : m.outcomeAmid w k = .error (.operandStackUnderflow stop)) (w' : Course) (k' : Nat) :
    stop = (m.stepsAmid w k).pc ∧ stop < u.code.size ∧ (n.stepsAmid w' k').pc ≤ stop := by
  obtain ⟨hstop, front, i, rest, hpc, hprogram, hi, hbalance, hret⟩ :=
    ((hm.levelled w k).amid (w k)).step_underflow he
  rw [pc_amid] at hstop hpc
  rw [unit_amid, unit_stepsAmid, hm.levelBetween.1] at hprogram
  obtain ⟨rfl, hstart⟩ := hn.levelBetween
  have hle := hstart.stepsAmid_barrier hprogram hi hbalance hret w' k'
  have hin : span front < n.unit.code.size := by
    have := i.width_pos
    rw [← n.unit.span_program, hprogram, span_append, span_cons]
    omega
  rw [hstop, hpc]
  exact ⟨rfl, hin, hle⟩

theorem Fresh.run_fails (h : Fresh u m) (hin : ∀ k, (m.stepsAmid w k).pc < u.code.size) (v : Value) :
    (m.runAmid w).1 ≠ .ok v := by
  intro hv
  obtain ⟨k, -, hend, -⟩ := m.runAmid_eq_steps w
  rw [hv] at hend
  have hlast : (m.stepsAmid w (k + 1)).pc = _ := ((h.levelled w k).amid (w k)).pc_of_finished hend
  have hlt := hin (k + 1)
  rw [hlast, unit_amid, unit_stepsAmid, h.levelBetween.1] at hlt
  exact Nat.lt_irrefl _ hlt

/-- Two machines over one unit, each just made or rewound, with whatever settings, bindings and hosts:
wherever one of them gets to within the code, the instructions in front of its position settle how
many operands it has and how many scopes more than at first, so at one position both have the same
levels. And where one wants for an operand, the other does not get past, in any number of steps, and
its runs fail. -/
theorem position_settles_levels (hm : Fresh u m) (hn : Fresh u n) (w w' : Course) :
    (∀ k, let a := m.stepsAmid w k
      a.pc < u.code.size →
        (a.stack.values.length : Int) = operandBalance (u.before a.pc) ∧
          (a.env.depth : Int) - m.env.depth = scopeBalance (u.before a.pc)) ∧
    (∀ k k', let a := m.stepsAmid w k
      let b := n.stepsAmid w' k'
      a.pc < u.code.size → a.pc = b.pc →
        a.stack.values.length = b.stack.values.length ∧
          (a.env.depth : Int) - m.env.depth = b.env.depth - n.env.depth) ∧
    (∀ k stop, m.outcomeAmid w k = .error (.operandStackUnderflow stop) →
      stop = (m.stepsAmid w k).pc ∧ (∀ k', (n.stepsAmid w' k').pc ≤ stop) ∧
        (n.runAmid w').2.pc ≤ stop ∧ ∀ v, (n.runAmid w').1 ≠ .ok v) ∧
    ∀ stop, (m.runAmid w).1 = .error (.operandStackUnderflow stop) →
      ∃ k, m.outcomeAmid w k = .error (.operandStackUnderflow stop) := by
  refine ⟨fun k hin => ?_, fun k k' hin hsame => ?_, fun k stop he => ?_, fun stop he => ?_⟩
  · have ha := hm.levels hin
    exact ⟨ha.operands, ha.scopes⟩
  · have ha := hm.levels hin
    have hb := hn.levels (hsame ▸ hin)
    rw [← hsame] at hb
    refine ⟨Int.ofNat.inj ?_, ?_⟩
    · exact ha.operands.trans hb.operands.symm
    · exact ha.scopes.trans hb.scopes.symm
  · have hbounds := hm.underflow hn he w'
    obtain ⟨hstop, hin, -⟩ := hbounds 0
    obtain ⟨last, -, -, hlast⟩ := n.runAmid_eq_steps w'
    refine ⟨hstop, fun k' => (hbounds k').2.2, hlast ▸ (hbounds (last + 1)).2.2, ?_⟩
    exact hn.run_fails fun k' => Nat.lt_of_le_of_lt (hbounds k').2.2 hin
  · obtain ⟨k, -, hend, -⟩ := m.runAmid_eq_steps w
    rw [he] at hend
    exact ⟨k, hend⟩

/-- The second of two discards wants for an operand, and a machine that was rewound in an inner scope
comes no further. -/
theorem second_discard_wants_operand :
    let p : List Instruction := [.popFrame, .constant 0, .pop, .pop]
    ∃ u m n, u.code = (assemble p).toArray ∧ Fresh u m ∧ Fresh u n ∧
      m.env.depth = 2 ∧ n.env.depth = 3 ∧
      (m.stepsAmid .quiet 2).pc = 4 ∧ (n.stepsAmid .quiet 2).pc = 4 ∧
      (m.stepsAmid .quiet 2).stack.values.length = (n.stepsAmid .quiet 2).stack.values.length ∧
      (m.stepsAmid .quiet 2).env.depth - (2 : Int) = (n.stepsAmid .quiet 2).env.depth - 3 ∧
      m.outcomeAmid .quiet 3 = .error (.operandStackUnderflow 5) ∧
      ∀ k, (n.stepsAmid .quiet k).pc ≤ 5 := by
  intro p
  obtain ⟨templates, -, hd⟩ := Draft.exists_templates .new .empty #[.int 7] p (by decide) rfl
  let u : CodeUnit := ⟨_, hd⟩
  let inner : Environment := (Environment.ofBase .empty).push 0 ⟨none, []⟩
  let start (env : Environment) : Machine :=
    ⟨⟨u, .run, none, none⟩, ⟨.empty 65536, env⟩, 0, none, []⟩
  let m := start inner
  let left := start ((inner.push 0 ⟨none, []⟩).push 0 ⟨none, []⟩)
  let n := left.step.2.rewind
  have hm : Fresh u m := .built (s := { Settings.default with env := some inner }) rfl
  have hn : Fresh u n := .rewound left.step.2 (congrArg Context.unit left.toContext_step)
  have hwants : m.outcomeAmid .quiet 3 = .error (.operandStackUnderflow 5) := by cbv
  obtain ⟨-, hsame, hunderflow, -⟩ := position_settles_levels hm hn .quiet .quiet
  have hmpc : (m.stepsAmid .quiet 2).pc = 4 := by cbv
  have hnpc : (n.stepsAmid .quiet 2).pc = 4 := by cbv
  have hin : (m.stepsAmid .quiet 2).pc < (assemble p).toArray.size := by
    rw [hmpc]
    decide
  obtain ⟨hlength, hdepth⟩ := hsame 2 2 hin (hmpc.trans hnpc.symm)
  obtain ⟨-, hle, -⟩ := hunderflow 3 5 hwants
  have hmdepth : m.env.depth = 2 := by cbv
  have hndepth : n.env.depth = 3 := by cbv
  rw [hmdepth, hndepth] at hdepth
  refine ⟨u, m, n, rfl, hm, hn, hmdepth, hndepth, hmpc, hnpc, hlength, hdepth, hwants, hle⟩

end Machine

end ScopeMachine
