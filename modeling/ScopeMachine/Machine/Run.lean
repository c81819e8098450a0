import ScopeMachine.Machine.Step

/-!
# Runs

Steps until the run is finished or a step fails. Every step that does not finish moves the position
forward within the code, so a run comes to an end.
-/

namespace ScopeMachine.Machine

theorem unit_note (m : Machine) (l : Option Lookup) : (m.note l).unit = m.unit := by
  unfold note requestInterrupt
  split
  · rfl
  · simp only
    split <;> rfl

theorem pc_of_commit {m after : Machine} {width : Nat} {effect : Effect}
    (h : m.commit width effect = (.ok .proceed, after)) :
    after.pc = m.pc + width ∧ after.unit = m.unit := by
  unfold commit at h
  split at h <;> simp only [Prod.mk.injEq, Except.ok.injEq, reduceCtorEq, false_and] at h
  obtain ⟨_, rfl⟩ := h
  exact ⟨rfl, unit_note _ _⟩

/-- A step that does not finish starts within the code and moves on in the same unit. -/
theorem pc_lt_of_step {m after : Machine} (h : m.step = (.ok .proceed, after)) :
    m.pc < m.unit.code.size ∧ m.pc < after.pc ∧ after.unit = m.unit := by
  unfold step at h
  split at h
  · simp at h
  split at h
  · next inside =>
    split at h
    · simp at h
    · next i _ =>
      have := i.width_pos
      have ⟨pc, same⟩ := pc_of_commit h
      exact ⟨inside, by omega, same⟩
  · simp at h

/-- Runs to the end, to the first return or to the first error. -/
def run (m : Machine) : Except EvalError Value × Machine :=
  match _ : m.step with
  | (.error e, after) => (.error e, after)
  | (.ok (.finished v), after) => (.ok v, after)
  | (.ok .proceed, after) => after.run
  termination_by m.unit.code.size - m.pc
  decreasing_by
    have stepped : m.step = (.ok .proceed, after) := by assumption
    have ⟨inside, forward, same⟩ := pc_lt_of_step stepped
    rw [same]
    omega

end ScopeMachine.Machine
