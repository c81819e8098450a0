import ScopeMachine.Proofs.Environment.Places

/-!
# Immutable bindings are written once

As long as its frame stays and the host defines nothing in it, an immutable slot takes at most one
write, whatever the references and the scopes from which it is reached, and it is settled from then
on (`WriteOnce`). An initialized one takes none. `KeepsImmutable` says so of the slots of all frames.
-/

namespace ScopeMachine

open List

namespace Slot

@[simp] theorem flags_ofDeclaration (d : Declaration) : (ofDeclaration d).flags = d.flags := by
  unfold ofDeclaration
  split <;> rfl

@[simp] theorem initialized_ofDeclaration (d : Declaration) :
    (ofDeclaration d).initialized = d.flags.hoisted := by
  unfold ofDeclaration
  split <;> simp_all

end Slot

namespace Environment

variable {env : Environment} {p : Place} {s : Slot} {actions : List Action}

/-- While the actions take place, nothing is written to the slot: it stays what it is, and each write
that resolves to it is refused and does nothing. -/
structure Settled (env : Environment) (p : Place) (s : Slot) (actions : List Action) : Prop where
  writes : env.writes p actions = []
  slot_after : ∀ front back, actions = front ++ back → (env.after front).slot? p = some s
  refuses : ∀ front back, actions = front ++ back → ∀ m v declares,
    (env.after front).place? m = some p →
      (env.after front).act (.write m v declares) =
        (.error (.immutableBinding s.name), env.after front)

/-- While the actions take place, at most one value is written to the slot. At each moment it holds
that value or what it held at first; if it is initialized then, by whatever value, it is settled for
the rest, and otherwise it takes a write. -/
structure WriteOnce (env : Environment) (p : Place) (s : Slot) (actions : List Action) :
    Prop where
  length_writes : (env.writes p actions).length ≤ 1
  slot_after : ∀ front back, actions = front ++ back →
    (env.after front).slot? p = some (s.overwrite (env.writes p front))
  settles : ∀ front back now, actions = front ++ back → (env.after front).slot? p = some now →
    now.initialized = true → (env.after front).Settled p now back
  accepts : ∀ front back now, actions = front ++ back → (env.after front).slot? p = some now →
    now.initialized = false → ∀ m v declares, (env.after front).place? m = some p →
      ((env.after front).act (.write m v declares)).1 = .ok ()

theorem slot?_push_of_declaration (env : Environment) (id : UInt16) {t : Template}
    (hd : t.slots[n]? = some d) :
    (env.push id t).slot? ⟨env.depth, n⟩ = some (.ofDeclaration d) := by
  rw [slot?, frameAt?_push, if_pos rfl, Option.bind_some, ← Array.getElem?_toList,
    Frame.slots_instantiate, getElem?_map, hd, Option.map_some]

theorem written?_of_isFixed (hs : env.slot? p = some s) (hfixed : s.isFixed = true) (a : Action) :
    env.written? p a = none := by
  cases a with
  | write m v declares =>
    refine if_neg fun ⟨hp, hok⟩ => ?_
    rw [act_write_of_place? hp hs, if_pos hfixed] at hok
    cases hok
  | _ => rfl

theorem writes_of_isFixed (hs : env.slot? p = some s) (hfixed : s.isFixed = true)
    (hkeeps : env.Keeps p.height actions) (hspares : env.Spares p.height actions) :
    env.writes p actions = [] := by
  induction actions generalizing env with
  | nil => rfl
  | cons a actions ih =>
    have hnone := written?_of_isFixed hs hfixed a
    have hnext := slot?_act hs hkeeps.2.lt_depth hspares.1
    rw [hnone] at hnext
    rw [writes, hnone, ih hnext hkeeps.2 hspares.2]
    rfl

theorem settled_of_isFixed (hs : env.slot? p = some s) (hfixed : s.isFixed = true)
    (hkeeps : env.Keeps p.height actions) (hspares : env.Spares p.height actions) :
    env.Settled p s actions := by
  have hafter : ∀ front back, actions = front ++ back → (env.after front).slot? p = some s := by
    rintro front back rfl
    obtain ⟨hkeeps, -⟩ := keeps_append.mp hkeeps
    obtain ⟨hspares, -⟩ := spares_append.mp hspares
    rw [slot?_after hs hkeeps hspares, writes_of_isFixed hs hfixed hkeeps hspares,
      Slot.overwrite_nil]
  refine ⟨writes_of_isFixed hs hfixed hkeeps hspares, hafter, fun front back h m v declares hm => ?_⟩
  rw [act_write_of_place? hm (hafter front back h), if_pos hfixed]

theorem length_writes_le (hs : env.slot? p = some s) (himm : s.flags.immutable = true)
    (hkeeps : env.Keeps p.height actions) (hspares : env.Spares p.height actions) :
    (env.writes p actions).length ≤ 1 := by
  induction actions generalizing env s with
  | nil => simp [writes]
  | cons a actions ih =>
    have hnext := slot?_act hs hkeeps.2.lt_depth hspares.1
    cases hwritten : env.written? p a with
    | none =>
      rw [hwritten] at hnext
      simpa [writes, hwritten] using ih hnext himm hkeeps.2 hspares.2
    | some v =>
      -- the first value that is written fixes the slot, and no other is written behind it
      rw [hwritten] at hnext
      have hfixed : (s.write v).isFixed = true := by simpa [Slot.isFixed, Slot.write] using himm
      have hrest := writes_of_isFixed hnext hfixed hkeeps.2 hspares.2
      simp [writes, hwritten, hrest]

theorem writeOnce (hs : env.slot? p = some s) (himm : s.flags.immutable = true)
    (hkeeps : env.Keeps p.height actions) (hspares : env.Spares p.height actions) :
    env.WriteOnce p s actions := by
  have hafter : ∀ front back, actions = front ++ back →
      (env.after front).slot? p = some (s.overwrite (env.writes p front)) := by
    rintro front back rfl
    exact slot?_after hs (keeps_append.mp hkeeps).1 (spares_append.mp hspares).1
  refine ⟨length_writes_le hs himm hkeeps hspares, hafter, ?_, ?_⟩
  · rintro front back now rfl hnow hinit
    obtain rfl := Option.some.inj (hnow.symm.trans (hafter front back rfl))
    have hfixed : (s.overwrite (env.writes p front)).isFixed = true := by
      simp [Slot.isFixed, himm, hinit]
    exact settled_of_isFixed hnow hfixed (keeps_append.mp hkeeps).2 (spares_append.mp hspares).2
  · intro front back now _ hnow hinit m v declares hm
    have hopen : now.isFixed = false := by simp [Slot.isFixed, hinit]
    simp [act_write_of_place? hm hnow, hopen]

/-- What holds of the immutable slots of all frames, those that are entered on the way included. A
slot that is hoisted is initialized as its frame is entered; so it is settled as long as that frame
stays, and any other is written once at most. -/
structure KeepsImmutable (env : Environment) (actions : List Action) : Prop where
  slot_entered : ∀ front back id t n d, actions = front ++ .push id t :: back →
    t.slots[n]? = some d → ∃ s,
      (env.after (front ++ [.push id t])).slot? ⟨(env.after front).depth, n⟩ = some s ∧
        s.name = d.name ∧ s.flags = d.flags ∧ s.initialized = d.flags.hoisted
  writeOnce : ∀ front life back p s, actions = front ++ life ++ back →
    (env.after front).slot? p = some s → s.flags.immutable = true →
      (env.after front).Keeps p.height life → (env.after front).WriteOnce p s life

theorem keepsImmutable (h : ∀ a ∈ actions, a.isDefine = false) : env.KeepsImmutable actions where
  slot_entered := by
    rintro front back id t n d rfl hd
    refine ⟨.ofDeclaration d, ?_, by simp, by simp, by simp⟩
    rw [after_append]
    exact slot?_push_of_declaration (env.after front) id hd
  writeOnce := by
    rintro front life back p s rfl hs himm hkeeps
    refine Environment.writeOnce hs himm hkeeps (spares_of_noDefine fun a ha => h a ?_)
    simp [ha]

end Environment

end ScopeMachine
