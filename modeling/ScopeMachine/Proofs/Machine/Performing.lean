import ScopeMachine.Proofs.Code.Balance
import ScopeMachine.Proofs.Machine.Evaluation

/-!
# What performed instructions have done

`Performed` says for each instruction what it has found and what it has made of the scene, once it has
been performed; `step_performs` says the same of a step of a machine. What holds of scenes by virtue
of what instructions do is proved from these two, without another look at how they do it.
-/

namespace ScopeMachine

open Instruction

theorem bind_eq_ok {x : Except ε α} {f : α → Except ε β} :
    x >>= f = .ok b ↔ ∃ a, x = .ok a ∧ f a = .ok b := by
  cases x <;> simp [bind, Except.bind]

theorem mapError_eq_ok {x : Except ε α} {f : ε → ε'} : x.mapError f = .ok a ↔ x = .ok a := by
  cases x <;> simp [Except.mapError]

namespace Context

inductive Yields (c : Context) (s : Scene) : Instruction → Value → Prop
  | constant : c.unit.constant n = .ok k → Yields c s (.constant n) (.ofConstant c.unit.interner k)
  | multiname : c.unit.multinames.get n = .ok m → Yields c s (.multiname n) (.multiname n)
  | lexicalRead : c.unit.multinames.get n = .ok m →
      (s.env.read m c.phase c.ambient).result = .ok v → Yields c s (.lexicalRead n) v

inductive Performed (c : Context) (limit : Nat) (s : Scene) : Instruction → Scene → Prop
  | add : c.Yields s i v → s.operands.length < limit →
      Performed c limit s i { s with operands := v :: s.operands }
  | pop : s.operands = v :: rest → Performed c limit s .pop { s with operands := rest }
  | dotRead : c.unit.multinames.get n = .ok m → s.operands = base :: rest →
      c.property base m = .ok v → Performed c limit s (.dotRead n) { s with operands := v :: rest }
  | lexicalWrite : c.unit.multinames.get n = .ok m → s.operands = v :: rest →
      s.env.write m v true = .ok env → Performed c limit s (.lexicalWrite n) { s with env }
  | lexicalAssign : c.unit.multinames.get n = .ok m → s.operands = v :: rest →
      s.env.write m v false = .ok env → Performed c limit s (.lexicalAssign n) { s with env }
  | pushFrame : c.unit.templates.get n = .ok t →
      Performed c limit s (.pushFrame n) { s with env := s.env.push n t }
  | popFrame : s.env.pop = .ok (f, env) → Performed c limit s .popFrame { s with env }
  | ret : Performed c limit s .ret { s with operands := s.operands.tail }

theorem Yields.addsOperand (h : Yields c s i v) : i.addsOperand = true := by
  cases h <;> rfl

end Context

namespace Scene

variable {s next : Scene}

theorem push_eq_ok : s.push limit v = .ok next ↔
    s.operands.length < limit ∧ { s with operands := v :: s.operands } = next := by
  unfold push
  split <;> simp [*]

theorem top_eq_ok : s.top = .ok (v, rest) ↔ s.operands = v :: rest := by
  unfold top
  split <;> simp [*]

theorem write_eq_ok : s.write m declares = .ok next ↔ ∃ v rest env,
    s.operands = v :: rest ∧ s.env.write m v declares = .ok env ∧ { s with env } = next := by
  simp only [write, bind_eq_ok, mapError_eq_ok, Prod.exists, top_eq_ok, pure, Except.pure, Except.ok.injEq]
  constructor
  · rintro ⟨v, rest, htop, env, hwrite, rfl⟩
    exact ⟨v, rest, env, htop, hwrite, rfl⟩
  · rintro ⟨v, rest, env, htop, hwrite, rfl⟩
    exact ⟨v, rest, htop, env, hwrite, rfl⟩

end Scene

namespace Context

variable {c : Context} {s next : Scene}

theorem performed_of_perform (h : c.perform limit s i = .ok next) :
    c.Performed limit s i next := by
  -- what the checks of an instruction found is what its rule asks for
  cases i with
  | constant n =>
    simp only [perform, Trouble.entry, bind_eq_ok, mapError_eq_ok, Scene.push_eq_ok] at h
    obtain ⟨k, hget, hroom, rfl⟩ := h
    exact .add (.constant hget) hroom
  | pop =>
    simp only [perform, bind_eq_ok, Prod.exists, Scene.top_eq_ok] at h
    obtain ⟨v, rest, htop, ⟨⟩⟩ := h
    exact .pop htop
  | multiname n =>
    simp only [perform, Trouble.entry, bind_eq_ok, mapError_eq_ok, Scene.push_eq_ok] at h
    obtain ⟨m, hget, hroom, rfl⟩ := h
    exact .add (.multiname hget) hroom
  | dotRead n =>
    simp only [perform, Trouble.entry, bind_eq_ok, mapError_eq_ok, Prod.exists, Scene.top_eq_ok] at h
    obtain ⟨m, hget, base, rest, htop, v, hv, ⟨⟩⟩ := h
    exact .dotRead hget htop hv
  | lexicalRead n =>
    simp only [perform, Trouble.entry, bind_eq_ok, mapError_eq_ok, Scene.push_eq_ok] at h
    obtain ⟨m, hget, v, hv, hroom, rfl⟩ := h
    exact .add (.lexicalRead hget hv) hroom
  | lexicalWrite n =>
    simp only [perform, Trouble.entry, bind_eq_ok, mapError_eq_ok, Scene.write_eq_ok] at h
    obtain ⟨m, hget, v, rest, env, htop, hwrite, rfl⟩ := h
    exact .lexicalWrite hget htop hwrite
  | lexicalAssign n =>
    simp only [perform, Trouble.entry, bind_eq_ok, mapError_eq_ok, Scene.write_eq_ok] at h
    obtain ⟨m, hget, v, rest, env, htop, hwrite, rfl⟩ := h
    exact .lexicalAssign hget htop hwrite
  | pushFrame n =>
    simp only [perform, Trouble.entry, bind_eq_ok, mapError_eq_ok] at h
    obtain ⟨t, hget, ⟨⟩⟩ := h
    exact .pushFrame hget
  | popFrame =>
    simp only [perform, bind_eq_ok, mapError_eq_ok, Prod.exists] at h
    obtain ⟨f, env, hpop, ⟨⟩⟩ := h
    exact .popFrame hpop
  | ret =>
    cases h
    exact .ret

end Context

/-! ## Steps -/

namespace Machine

variable {m : Machine}

/-- A step fails and leaves the scene as it is, finishes at the end of the code, or has performed the
instruction at the position. -/
theorem step_performs (hm : m.toState.Fits) :
    (∃ e, m.step.1 = .error e ∧ m.step.2.toState = m.toState) ∨
      (m.unit.code.size ≤ m.pc ∧ m.step = (.ok (.finished m.toState.scene.result), m)) ∨
      ∃ i, decodeAt m.unit.code m.pc = .ok i ∧
        m.step.1 = .ok (if i = .ret then .finished m.toState.scene.result else .proceed) ∧
        m.toContext.Performed m.stack.limit m.toState.scene i m.step.2.toState.scene := by
  by_cases hq : m.isInterrupted
  · exact .inl ⟨.interrupted m.pc, by simp [step, hq]⟩
  by_cases hin : m.pc < m.unit.code.size
  · cases hi : decodeAt m.unit.code m.pc with
    | error e => exact .inl ⟨.malformed e, by simp [step, hq, hin, hi]⟩
    | ok i =>
      have hs : m.step = m.commit i.width (m.toContext.execute m.pc i m.toState) := by
        simp [step, hq, hin, hi]
      -- what the instruction does to the state it does to the scene
      have hmirrors := Context.execute_mirrors (c := m.toContext) hm m.pc i
      generalize hr : m.toContext.perform m.stack.limit m.toState.scene i = r at hmirrors
      cases hmirrors with
      | @fails e he =>
        have hfail : m.step.1 = .error (e.at m.pc) := by rw [hs, result_commit, he]
        obtain ⟨heq, -⟩ := step_failed hm hfail
        have hstate := congrArg Machine.toState heq
        exact .inl ⟨_, hfail, hstate⟩
      | works hok hscene hlimit =>
        refine .inr (.inr ⟨i, rfl, ?_, ?_⟩)
        · rw [hs, result_commit, hok]
        · rw [hs, toState_commit, hscene]
          exact Context.performed_of_perform hr
  · refine .inr (.inl ⟨Nat.le_of_not_lt hin, ?_⟩)
    simp only [step, hq, hin]
    rfl

end Machine

end ScopeMachine
