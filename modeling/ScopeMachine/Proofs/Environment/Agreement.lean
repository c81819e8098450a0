import ScopeMachine.Proofs.Code.Loading
import ScopeMachine.Proofs.Environment.Representation
import ScopeMachine.Proofs.Related

/-!
# Environments answer like nested maps

Frame by frame an environment represents the maps of `Scopes`, and every call keeps it so. Whatever
the calls are and in whatever order they come, both give the same answers: `answers_eq`.
-/

namespace ScopeMachine

open List (Forall₂)

theorem Multiname.declarationName_mem_keys (m : Multiname) : m.declarationName ∈ m.keys := by
  obtain ⟨name, namespaces⟩ := m
  cases namespaces <;> simp [declarationName, keys, isQualified]

namespace Environment

structure Represents (env : Environment) (r : Scopes) : Prop where
  frames : Forall₂ Frame.Represents env.frames r.maps
  policy : env.policy = r.policy

variable {env : Environment} {r : Scopes} {fs : List Frame} {maps : List Scope}

/-! ## Looking up -/

/-- Both searches end in the same scope at the same entry, or both find nothing. -/
theorem findIn_represents (h : Forall₂ Frame.Represents fs maps) (m : Multiname) (d : Nat) :
    (findIn m d fs = none ∧ Scopes.locate m maps = none) ∨
      ∃ n i a f, findIn m d fs = some ⟨d + n, i, a⟩ ∧ fs[n]? = some f ∧ f.slots[i]? = some a ∧
        Scopes.locate m maps = some (n, a.name, a.entry) := by
  induction h generalizing d with
  | nil => exact .inl ⟨rfl, rfl⟩
  | @cons f s fs maps hf h ih =>
    rcases hf.find? m with ⟨hnone, hnone'⟩ | ⟨i, a, hsome, ha, hsome'⟩
    · simp only [findIn, Scopes.locate, hnone, hnone']
      rcases ih (d + 1) with ⟨hrest, hrest'⟩ | ⟨n, i, a, g, hrest, hg, ha, hrest'⟩
      · exact .inl ⟨hrest, by simp [hrest']⟩
      · refine .inr ⟨n + 1, i, a, g, ?_, by simpa using hg, ha, by simp [hrest']⟩
        rw [hrest, Nat.add_assoc, Nat.add_comm 1]
    · simp only [findIn, Scopes.locate, hsome, hsome']
      exact .inr ⟨0, i, a, f, rfl, rfl, ha, rfl⟩

theorem Represents.find? (h : env.Represents r) (m : Multiname) :
    (env.find? m = none ∧ Scopes.locate m r.maps = none) ∨
      ∃ n i a f, env.find? m = some ⟨n, i, a⟩ ∧ env.frames[n]? = some f ∧ f.slots[i]? = some a ∧
        Scopes.locate m r.maps = some (n, a.name, a.entry) := by
  simpa [Environment.find?] using findIn_represents h.frames m 0

theorem find?_innermost (h : env.find? m = none) : env.innermost.find? m = none := by
  unfold Environment.find? Environment.frames findIn at h
  split at h
  · cases h
  · assumption

theorem Represents.distance? (h : env.Represents r) (m : Multiname) :
    env.distance? m = r.distance? m := by
  unfold Environment.distance? Scopes.distance?
  rcases h.find? m with ⟨hnone, hnone'⟩ | ⟨n, i, a, f, hsome, -, -, hsome'⟩
  · simp [hnone, hnone']
  · simp [hsome, hsome']

theorem Represents.read (h : env.Represents r) (m : Multiname) (phase : Phase)
    (ambient : Option Ambient) : env.read m phase ambient = r.read m phase ambient := by
  unfold Environment.read Scopes.read uninitialized
  rw [h.policy]
  rcases h.find? m with ⟨hnone, hnone'⟩ | ⟨n, i, a, f, hsome, -, -, hsome'⟩
  · simp only [hnone, hnone']
    cases ambient with
    | none => rfl
    | some ambient => cases hanswer : ambient.answer m <;> simp only [hanswer] <;> rfl
  · simp only [hsome, hsome', Slot.entry]
    by_cases hi : a.initialized
    · simp [hi]
    · simp only [hi]
      cases r.policy.onUninitialized phase <;> rfl

theorem Represents.depth (h : env.Represents r) : env.depth = r.depth :=
  h.frames.length_eq

theorem Represents.innermost (h : env.Represents r) : env.innermost.Represents r.innermost := by
  obtain ⟨maps, hmaps, policy⟩ := r
  cases h.frames with
  | cons hf _ => exact hf

theorem base_represents {f : Frame} {s : Scope} (hf : f.Represents s)
    (h : Forall₂ Frame.Represents fs maps) :
    (fs.getLastD f).Represents ((s :: maps).getLast (by simp)) := by
  induction h generalizing f s with
  | nil => exact hf
  | cons hg _ ih =>
    rw [List.getLastD_cons, List.getLast_cons (by simp)]
    exact ih hg

theorem Represents.base (h : env.Represents r) : env.base.Represents r.base := by
  obtain ⟨maps, hmaps, policy⟩ := r
  cases h.frames with
  | cons hf hrest => exact base_represents hf hrest

/-! ## Changes -/

theorem frames_modifyFrame (env : Environment) (n : Nat) (change : Frame → Frame) :
    (env.modifyFrame n change).frames = env.frames.modify n change := by
  cases n <;> rfl

theorem policy_modifyFrame (env : Environment) (n : Nat) (change : Frame → Frame) :
    (env.modifyFrame n change).policy = env.policy := by
  cases n <;> rfl

/-- A frame that changes like a map into which an entry is put. -/
theorem Represents.put (h : env.Represents r) {change : Frame → Frame}
    (hn : ∀ f s, env.frames[n]? = some f → f.Represents s → (change f).Represents (s.insert q e)) :
    (env.modifyFrame n change).Represents (r.put n q e) where
  frames := by
    rw [frames_modifyFrame]
    exact forall₂_modify h.frames hn
  policy := (env.policy_modifyFrame n change).trans h.policy

theorem Represents.push (h : env.Represents r) (id : UInt16) {t : Template} (ht : t.names.Nodup) :
    (env.push id t).Represents (r.push t) where
  frames := .cons (Frame.represents_instantiate id ht) h.frames
  policy := h.policy

theorem Represents.define (h : env.Represents r) (q : QualifiedName) (v : Value)
    (flags : SlotFlags) : (env.define q v flags).Represents (r.define q v flags) :=
  h.put fun _ _ _ hf => hf.define q v flags

theorem Represents.defineGlobal (h : env.Represents r) (q : QualifiedName) (v : Value)
    (flags : SlotFlags) : (env.defineGlobal q v flags).Represents (r.defineGlobal q v flags) := by
  have hlast : env.outer.length = r.maps.length - 1 := by
    have := h.frames.length_eq
    simp only [Environment.frames, List.length_cons] at this
    omega
  unfold Environment.defineGlobal Scopes.defineGlobal
  rw [hlast]
  exact h.put fun _ _ _ hf => hf.define q v flags

theorem Represents.pop (h : env.Represents r) :
    (env.pop = .error .frameUnderflow ∧ r.pop = .error .frameUnderflow) ∨
      ∃ f env' s r', env.pop = .ok (f, env') ∧ r.pop = .ok (s, r') ∧ f.Represents s ∧
        env'.Represents r' := by
  -- as many frames as maps: there is something below on both sides or on neither
  obtain ⟨innermost, outer, policy⟩ := env
  obtain ⟨maps, hmaps, policy'⟩ := r
  obtain ⟨hframes, hpolicy⟩ := h
  cases hframes with
  | cons hf hrest =>
    cases hrest with
    | nil => exact .inl ⟨rfl, rfl⟩
    | cons hg hrest => exact .inr ⟨_, _, _, _, rfl, rfl, hf, .cons hg hrest, hpolicy⟩

theorem Represents.write (h : env.Represents r) (m : Multiname) (v : Value) (declares : Bool) :
    (∃ e, env.write m v declares = .error e ∧ r.write m v declares = .error e) ∨
      ∃ env' r', env.write m v declares = .ok env' ∧ r.write m v declares = .ok r' ∧
        env'.Represents r' := by
  unfold Environment.write Scopes.write
  rcases h.find? m with ⟨hnone, hnone'⟩ | ⟨n, i, a, f, hsome, hf, ha, hsome'⟩
  · rw [hnone, hnone']
    cases declares with
    | false => exact .inl ⟨_, rfl, rfl⟩
    | true =>
      refine .inr ⟨_, _, rfl, rfl, h.put fun f s hf hs => hs.declare ?_⟩
      -- the key under which it is declared is one of those that were looked for in vain
      obtain rfl : env.innermost = f := by simpa [Environment.frames] using hf
      have hs := hs.find?_eq_none (find?_innermost hnone)
      exact Scope.find?_eq_none_iff.mp hs _ m.declarationName_mem_keys
  · simp only [hsome, hsome', Slot.isFixed, Slot.entry]
    by_cases hfixed : (a.flags.immutable && a.initialized) = true
    · exact .inl ⟨_, if_pos hfixed, if_pos hfixed⟩
    · refine .inr ⟨_, _, if_neg hfixed, if_neg hfixed, h.put fun g s hg hs => ?_⟩
      -- the frame that is written is the one in which the slot was found
      cases hf.symm.trans hg
      exact hs.write ha v

/-! ## Calls -/

/-- A call is answered alike, and leaves the environment representing the maps it leaves. -/
theorem Represents.answer (h : env.Represents r) (c : Call) :
    (env.answer c).1 = (r.answer c).1 ∧ (env.answer c).2.Represents (r.answer c).2 := by
  cases c with
  | push id t =>
    obtain ⟨t, a, n, ht⟩ := t
    exact ⟨rfl, h.push id (Arena.names_nodup_of_push ht)⟩
  | pop =>
    simp only [Environment.answer, Scopes.answer]
    rcases h.pop with ⟨hpop, hpop'⟩ | ⟨f, env', s, r', hpop, hpop', hf, hrest⟩
    · rw [hpop, hpop']
      exact ⟨rfl, h⟩
    · rw [hpop, hpop']
      exact ⟨congrArg Answer.scope (funext hf.get?), hrest⟩
  | read m phase ambient => exact ⟨congrArg Answer.reading (h.read m phase ambient), h⟩
  | write m v declares =>
    simp only [Environment.answer, Scopes.answer]
    rcases h.write m v declares with ⟨e, hwrite, hwrite'⟩ | ⟨env', r', hwrite, hwrite', hrest⟩
    · rw [hwrite, hwrite']
      exact ⟨rfl, h⟩
    · rw [hwrite, hwrite']
      exact ⟨rfl, hrest⟩
  | define q v flags => exact ⟨rfl, h.define q v flags⟩
  | defineGlobal q v flags => exact ⟨rfl, h.defineGlobal q v flags⟩
  | policy policy => exact ⟨rfl, h.frames, rfl⟩
  | distance m => exact ⟨congrArg Answer.number (h.distance? m), h⟩
  | depth => exact ⟨congrArg (fun n => Answer.number (some n)) h.depth, h⟩
  | innermost m => exact ⟨congrArg Answer.value (h.innermost.get? m), h⟩
  | base m => exact ⟨congrArg Answer.value (h.base.get? m), h⟩

theorem Represents.answers (h : env.Represents r) (calls : List Call) :
    Call.answers Environment.answer env calls = Call.answers Scopes.answer r calls := by
  induction calls generalizing env r with
  | nil => rfl
  | cons c calls ih =>
    obtain ⟨hanswer, hafter⟩ := h.answer c
    rw [Call.answers, Call.answers, hanswer, ih hafter]

end Environment

theorem Base.frame_represents (b : Base) : b.frame.Represents b.scope := by
  cases b with
  | empty => exact Frame.represents_empty none
  | ofTemplate id t =>
    obtain ⟨t, a, n, ht⟩ := t
    exact Frame.represents_instantiate id (Arena.names_nodup_of_push ht)

/-- Whatever the base frame and whatever the calls, the environment gives the answers of the nested
maps. -/
theorem Environment.answers_eq (b : Base) (calls : List Call) :
    Call.answers Environment.answer (.ofBase b.frame) calls =
      Call.answers Scopes.answer (.ofBase b.scope) calls := by
  have hbase : (Environment.ofBase b.frame).Represents (.ofBase b.scope) :=
    ⟨.cons b.frame_represents .nil, rfl⟩
  exact hbase.answers calls

end ScopeMachine
