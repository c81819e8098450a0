import Mathlib.Order.Bounds.Basic
import ScopeMachine.Proofs.Machine.Stepping

/-!
# Machines keep to instruction boundaries

Whatever its host does, a machine stands at an instruction of its unit or at the end of the code,
each of its steps moves it to the next boundary at most, and so its runs come to an end
(`sessions_keep_to_boundaries`).
-/

namespace ScopeMachine

open Instruction

namespace Instruction

theorem layout_bounds (h : x ∈ layout offset p) : offset ≤ x.1 ∧ x.1 < offset + span p := by
  obtain ⟨a, i⟩ := x
  obtain ⟨front, back, rfl, rfl⟩ := mem_layout.mp h
  have := i.width_pos
  simp
  omega

theorem filter_layout_append (front back : List Instruction) :
    (layout 0 (front ++ back)).filter (span front ≤ ·.1) = layout (span front) back := by
  rw [layout_append, List.filter_append, List.filter_eq_nil_iff.mpr, List.filter_eq_self.mpr]
  · simp
  · intro x hx
    have := layout_bounds hx
    simp
    omega
  · intro x hx
    have := layout_bounds hx
    simp
    omega

end Instruction

theorem CodeUnit.isLeast_boundary {u : CodeUnit} (h : u.program = front ++ i :: rest) :
    IsLeast {b | Boundary u.code b ∧ span front < b} (span (front ++ [i])) := by
  refine ⟨⟨u.boundary_iff.mpr ⟨front ++ [i], rest, by simp [h], rfl⟩, ?_⟩, ?_⟩
  · have := i.width_pos
    simp
    omega
  · rintro b ⟨hb, hlt⟩
    obtain ⟨front', back', hp, rfl⟩ := u.boundary_iff.mp hb
    rw [h] at hp
    -- a boundary behind `front` has at least the instruction more in front of it
    rcases List.append_eq_append_iff.mp hp with ⟨mid, rfl, hmid⟩ | ⟨mid, rfl, hmid⟩
    · cases mid with
      | nil => simp at hlt
      | cons j mid =>
        cases hmid
        simp
    · rw [span_append] at hlt
      omega

namespace Machine

theorem boundary_invariant (u : CodeUnit) :
    Invariant fun m => m.unit = u ∧ Boundary u.code m.pc where
  step m := by
    rintro ⟨rfl, hb⟩
    refine ⟨congrArg Context.unit m.toContext_step, ?_⟩
    obtain ⟨front, back, h⟩ := exists_between hb
    have hunit : m.step.2.unit = m.unit := congrArg Context.unit m.toContext_step
    obtain ⟨herror, hproceed, hfinished⟩ := h.step
    -- the machine stays, goes on behind one instruction, or is behind the whole program
    rcases hs : m.step.1 with e | _ | v
    · exact hunit ▸ (herror e hs).boundary
    · obtain ⟨i, rest, -, hafter⟩ := hproceed hs
      exact hunit ▸ hafter.boundary
    · exact hunit ▸ (hfinished v hs).boundary
  rewind m := by
    rintro ⟨rfl, -⟩
    exact ⟨rfl, m.unit.boundary_iff.mpr ⟨[], m.unit.program, rfl, rfl⟩⟩
  phase _ _ h := h
  event m e := by
    rintro ⟨rfl, hb⟩
    refine ⟨m.unit_amid [e], ?_⟩
    rwa [show (m.happen e).pc = m.pc from m.pc_amid [e]]
  env _ _ h := h

theorem Between.step_ne_malformed {m : Machine} (h : m.Between front back) (e : LoadError) :
    m.step.1 ≠ .error (.malformed e) := by
  rcases h.step_cases with ⟨-, hs⟩ | ⟨-, -, hs⟩ | ⟨i, rest, -, rfl, hs⟩
  · simp [hs]
  · simp [hs]
  · have hi : i ∈ m.unit.program := by simp [h.1]
    rcases hr : (m.toContext.execute m.pc i m.toState).result with e' | _ | v
    · rw [hs, commit_error hr]
      rintro ⟨⟩
      exact Context.execute_ne_malformed hi hr
    · simp [hs, commit_proceed hr]
    · simp [hs, commit_finished hr]

def remaining (m : Machine) : Nat :=
  ((decode m.unit.code).instructions.filter (m.pc ≤ ·.1)).length

theorem Between.remaining {m : Machine} (h : m.Between front back) : m.remaining = back.length := by
  rw [Machine.remaining, m.unit.instructions_decode, h.1, h.2, filter_layout_append,
    ← List.length_map Prod.snd, map_snd_layout]

theorem Between.amid {m : Machine} (h : m.Between front back) (events : List Event) :
    (m.amid events).Between front back := by
  simpa [Between] using h

/-- A run takes one step for each instruction ahead and one more, at most. -/
theorem Between.runWithin {m : Machine} (h : m.Between front back) (hlt : back.length < steps)
    (w : Course) : m.runWithin steps w = some (m.runAmid w) := by
  induction steps generalizing m front back w with
  | zero => omega
  | succ steps ih =>
    rw [Machine.runWithin, runAmid_eq]
    obtain ⟨-, hproceed, -⟩ := (h.amid (w 0)).step
    rcases hs : (m.amid (w 0)).step with ⟨e | _ | v, after⟩
    · rfl
    · obtain ⟨i, rest, rfl, hafter⟩ := hproceed (by rw [hs])
      rw [hs] at hafter
      exact ih hafter (by simpa using hlt) w.later
    · rfl

theorem ofSettings_eq_ok (u : CodeUnit) (s : Settings) :
    ∃ m, ofSettings u s = .ok m ∧ m.toContext = ⟨u, s.phase, s.ambient, s.resolver⟩ ∧ m.pc = 0 ∧
      m.stack = .empty s.stackLimit ∧ m.interrupt = s.interrupt := by
  have henv : ∃ env, s.environment u = .ok env := by
    unfold Settings.environment
    split
    · exact ⟨_, rfl⟩
    · obtain ⟨t, ht⟩ := u.exists_base
      exact ⟨.ofBase (.instantiate u.base t), by simp [Environment.ofUnit, ht]⟩
  obtain ⟨env, henv⟩ := henv
  unfold ofSettings
  rw [henv]
  exact ⟨_, rfl, rfl, rfl, rfl, rfl⟩

/-- For every unit and all settings there is a machine, and whatever its host does with it, in any
order and with any events in the course of its runs: it stands at an instruction or at the end of
the code; neither a step nor a run finds the unit malformed; a step that goes on goes on to the
very next boundary; and a run ends within one step for each instruction ahead and one more. -/
theorem sessions_keep_to_boundaries (u : CodeUnit) (s : Settings) :
    ∃ start, ofSettings u s = .ok start ∧ ∀ ops : List Operation,
      let m := start.after ops
      Boundary u.code m.pc ∧
      (∀ e, m.step.1 ≠ .error (.malformed e)) ∧
      (∀ w e, (m.runAmid w).1 ≠ .error (.malformed e)) ∧
      (m.step.1 = .ok .proceed → IsLeast {b | Boundary u.code b ∧ m.pc < b} m.step.2.pc) ∧
      (∀ w, m.runWithin (m.remaining + 1) w = some (m.runAmid w)) ∧
      m.runAmid .quiet = m.run := by
  obtain ⟨start, hok, hcontext, hpc, -⟩ := ofSettings_eq_ok u s
  refine ⟨start, hok, fun ops => ?_⟩
  intro m
  have hstart : Boundary u.code start.pc :=
    u.boundary_iff.mpr ⟨[], u.program, rfl, by simp [hpc]⟩
  obtain ⟨rfl, hb⟩ : m.unit = u ∧ Boundary u.code m.pc :=
    (boundary_invariant u).after ⟨congrArg Context.unit hcontext, hstart⟩ ops
  obtain ⟨front, back, h⟩ := exists_between hb
  refine ⟨hb, h.step_ne_malformed, ?_, ?_, fun w => ?_, m.runAmid_quiet⟩
  · intro w e he
    obtain ⟨last, hpasses, hstep⟩ := runAmid_error he
    obtain ⟨hlast, hblast⟩ := (boundary_invariant m.unit).passes ⟨rfl, hb⟩ hpasses
    obtain ⟨front, back, h⟩ := exists_between (hlast ▸ hblast)
    exact h.step_ne_malformed e (by rw [hstep])
  · intro hs
    obtain ⟨i, rest, rfl, hafter⟩ := h.step.2.1 hs
    rw [hafter.2, h.2]
    exact CodeUnit.isLeast_boundary h.1
  · exact h.runWithin (by simp [h.remaining]) w

end Machine

end ScopeMachine
