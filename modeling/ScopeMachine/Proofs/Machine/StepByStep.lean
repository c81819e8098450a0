import ScopeMachine.Proofs.Machine.Stepping

/-!
# Machines step by step

A machine may be stepped any number of times, whatever the steps come to, with events before each of
them. `stepsAmid` is the machine after so many steps and `outcomeAmid` what one of them comes to. A run
is so many steps: all but the last go on, and the last one ends it (`runAmid_eq_steps`).
-/

namespace ScopeMachine.Machine

variable {m : Machine} {w : Course}

def stepsAmid (w : Course) (m : Machine) : Nat → Machine
  | 0 => m
  | k + 1 => ((m.stepsAmid w k).amid (w k)).step.2

def outcomeAmid (w : Course) (m : Machine) (k : Nat) : Except EvalError Step :=
  ((m.stepsAmid w k).amid (w k)).step.1

/-- What holds at first, and is kept by the events of the course and by steps, holds throughout. -/
theorem stepsAmid_induction {P : Machine → Prop} (h : P m)
    (hamid : ∀ k m, P m → P (m.amid (w k))) (hstep : ∀ m, P m → P m.step.2) (k : Nat) :
    P (m.stepsAmid w k) := by
  induction k with
  | zero => exact h
  | succ k ih => exact hstep _ (hamid k _ ih)

theorem Invariant.stepsAmid {P : Machine → Prop} (hP : Invariant P) (h : P m) (w : Course)
    (k : Nat) : P (m.stepsAmid w k) :=
  stepsAmid_induction h (fun k _ hm => hP.amid hm (w k)) hP.step k

theorem unit_invariant (u : CodeUnit) : Invariant fun m => m.unit = u where
  step m h := (congrArg Context.unit m.toContext_step).trans h
  rewind _ h := h
  phase _ _ h := h
  event m e h := (m.unit_amid [e]).trans h
  env _ _ h := h

theorem unit_stepsAmid (w : Course) (m : Machine) (k : Nat) : (m.stepsAmid w k).unit = m.unit :=
  (unit_invariant m.unit).stepsAmid rfl w k

theorem stepsAmid_succ (w : Course) (m : Machine) (k : Nat) :
    m.stepsAmid w (k + 1) = (m.amid (w 0)).step.2.stepsAmid w.later k := by
  induction k with
  | zero => rfl
  | succ k ih =>
    rw [stepsAmid, ih]
    rfl

theorem outcomeAmid_succ (w : Course) (m : Machine) (k : Nat) :
    m.outcomeAmid w (k + 1) = (m.amid (w 0)).step.2.outcomeAmid w.later k := by
  unfold outcomeAmid
  rw [stepsAmid_succ]
  rfl

/-- A run is so many steps, and the outcome of the last one is its result. -/
theorem runAmid_eq_steps (w : Course) (m : Machine) :
    ∃ k, (∀ j < k, m.outcomeAmid w j = .ok .proceed) ∧
      m.outcomeAmid w k = (m.runAmid w).1.map .finished ∧ m.stepsAmid w (k + 1) = (m.runAmid w).2 := by
  fun_induction runAmid w m with
  | case1 w m e after hs => exact ⟨0, by simp, congrArg Prod.fst hs, congrArg Prod.snd hs⟩
  | case2 w m v after hs => exact ⟨0, by simp, congrArg Prod.fst hs, congrArg Prod.snd hs⟩
  | case3 w m after hs ih =>
    obtain ⟨k, hgo, hend, hlast⟩ := ih
    have hafter : (m.amid (w 0)).step.2 = after := congrArg Prod.snd hs
    refine ⟨k + 1, fun j hj => ?_, ?_, ?_⟩
    · cases j with
      | zero => exact congrArg Prod.fst hs
      | succ j =>
        rw [outcomeAmid_succ, hafter]
        exact hgo j (Nat.lt_of_succ_lt_succ hj)
    · rw [outcomeAmid_succ, hafter, hend]
    · rw [stepsAmid_succ, hafter, hlast]

/-- Steps of which all but the last go on, and the last one ends, are a run. -/
theorem runAmid_of_steps {r : Except EvalError Value}
    (hgo : ∀ j < k, m.outcomeAmid w j = .ok .proceed)
    (hend : m.outcomeAmid w k = r.map .finished) : m.runAmid w = (r, m.stepsAmid w (k + 1)) := by
  induction k generalizing m w with
  | zero =>
    have hs : (m.amid (w 0)).step = (r.map .finished, m.stepsAmid w 1) := Prod.ext hend rfl
    rw [runAmid_eq, hs]
    cases r <;> rfl
  | succ k ih =>
    have hs : (m.amid (w 0)).step = (.ok .proceed, (m.amid (w 0)).step.2) :=
      Prod.ext (hgo 0 (Nat.succ_pos k)) rfl
    rw [runAmid_eq, hs, stepsAmid_succ]
    refine ih (fun j hj => ?_) ?_
    · rw [← outcomeAmid_succ]
      exact hgo (j + 1) (Nat.succ_lt_succ hj)
    · rw [← outcomeAmid_succ, hend]

end ScopeMachine.Machine
