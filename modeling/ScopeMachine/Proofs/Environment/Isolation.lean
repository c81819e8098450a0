import ScopeMachine.Proofs.Environment.Places

/-!
# Scopes are isolated

What happens in a scope that is entered and left again stays there, but for writes that resolve to
slots of the frames around it. These frames keep their slots under the same names and with the same
flags whatever happens (`Persists`), and lookups go by names. So each reference resolves afterwards
as it did before: `scopes_are_isolated`.
-/

namespace ScopeMachine

open List

/-- What becomes of a slot around a scope: it may have been written. -/
structure Slot.Persists (a b : Slot) : Prop where
  name : a.name = b.name
  flags : a.flags = b.flags
  initialized : a.initialized = true → b.initialized = true

/-- What becomes of a frame around a scope: it has neither further slots nor fewer. -/
structure Frame.Persists (f g : Frame) : Prop where
  template : f.template = g.template
  index : f.index = g.index
  slots : Forall₂ Slot.Persists f.slots.toList g.slots.toList

def Frame.shape (f : Frame) : Option UInt16 × Std.HashMap Name (Array Nat) × Nat :=
  (f.template, f.index, f.slots.size)

theorem Slot.persists_overwrite (s : Slot) (values : List Value) :
    s.Persists (s.overwrite values) where
  name := by simp
  flags := by simp
  initialized h := initialized_overwrite h values

theorem Multiname.agree_of_persists (m : Multiname) : m.Agree Slot.Persists m where
  accepts _ _ h := congrArg m.accepts h.name
  rank _ _ h := congrArg m.rank h.name

theorem Frame.Persists.related (h : Frame.Persists f g) (m : Multiname) :
    f.Related Slot.Persists m m g :=
  ⟨h.slots, by simp only [slotsNamed, h.index]⟩

@[simp] theorem Frame.shape_write (f : Frame) (n : Nat) (v : Value) :
    (f.write n v).shape = f.shape := by
  simp [shape, write]

namespace Environment

variable {env : Environment}

@[simp] theorem policy_act (env : Environment) (a : Action) : (env.act a).2.policy = env.policy := by
  cases a with
  | push id t => rfl
  | pop =>
    obtain ⟨f, outer, policy⟩ := env
    cases outer <;> rfl
  | read m phase ambient => rfl
  | write m v declares =>
    simp only [act, write]
    split
    next => rfl
    next hwrite =>
      split at hwrite <;> split at hwrite <;> cases hwrite
      · exact env.policy_modifyFrame ..
      · exact env.policy_modifyFrame ..
  | define q v flags => exact env.policy_modifyFrame ..

theorem policy_after (env : Environment) (actions : List Action) :
    (env.after actions).policy = env.policy := by
  induction actions generalizing env with
  | nil => rfl
  | cons a actions ih => exact (ih _).trans (env.policy_act a)

/-- Below the innermost frame an action writes slots at most. -/
theorem shape_act {a : Action} (hbelow : height + 1 < env.depth)
    (hlive : height < (env.act a).2.depth) :
    ((env.act a).2.frameAt? height).map Frame.shape = (env.frameAt? height).map Frame.shape := by
  cases hwrite : a.isWrite with
  | false => rw [frameAt?_act hlive (Nat.lt_of_succ_lt hbelow) (fun _ => hbelow) hwrite]
  | true =>
    cases a with
    | write m v declares =>
      cases hp : env.place? m with
      | none =>
        -- what is declared goes to the innermost frame, not to this one
        rw [act_write_of_place?_eq_none hp]
        cases declares with
        | false => rfl
        | true => simp [frameAt?_modifyFrame, Nat.ne_of_lt hbelow]
      | some p =>
        obtain ⟨b, -, -, -, hb⟩ := place?_eq_some hp
        rw [act_write_of_place? hp hb]
        split
        · rfl
        · rw [frameAt?_modifyFrame]
          split
          · simp [Function.comp_def]
          · rfl
    | _ => cases hwrite

theorem shape_after (hkeeps : env.Keeps above actions) (hbelow : height < above) :
    ((env.after actions).frameAt? height).map Frame.shape =
      (env.frameAt? height).map Frame.shape := by
  induction actions generalizing env with
  | nil => rfl
  | cons a actions ih =>
    have hstep : ((env.act a).2.frameAt? height).map Frame.shape =
        (env.frameAt? height).map Frame.shape := by
      have hnow := hkeeps.1
      have hnext := hkeeps.2.lt_depth
      exact shape_act (by omega) (by omega)
    exact (ih hkeeps.2).trans hstep

theorem pop_of_depth (h : 1 < env.depth) : ∃ f below, env.pop = .ok (f, below) := by
  obtain ⟨innermost, outer, policy⟩ := env
  cases outer with
  | nil => exact absurd h (Nat.lt_irrefl 1)
  | cons f outer => exact ⟨innermost, _, rfl⟩

/-- The environment after actions in which a scope was entered and left differs from the one before
in what was written to its slots, and in nothing else. -/
structure Isolated (env : Environment) (actions : List Action) : Prop where
  depth : (env.after actions).depth = env.depth
  policy : (env.after actions).policy = env.policy
  frames : Forall₂ Frame.Persists env.frames (env.after actions).frames
  slot? : ∀ p s, env.slot? p = some s →
    (env.after actions).slot? p = some (s.overwrite (env.writes p actions))
  place? : ∀ m, (env.after actions).place? m = env.place? m
  distance? : ∀ m, (env.after actions).distance? m = env.distance? m
  read : ∀ m policy phase ambient,
    (∀ p, env.place? m = some p → env.writes p actions = []) →
      ((env.after actions).withPolicy policy).read m phase ambient =
        (env.withPolicy policy).read m phase ambient

/-! ## Around a scope -/

section Scope

/-! The scope is the innermost one again as it is left. -/

variable {id : UInt16} {t : Template} {actions : List Action} {f : Frame} {left : Environment}
  (hkeeps : (env.push id t).Keeps env.depth actions)
  (hend : ((env.push id t).after actions).depth = env.depth + 1)
  (hpop : ((env.push id t).after actions).pop = .ok (f, left))
include hend hpop

theorem depth_of_scope : left.depth = env.depth := by
  have hlengths := congrArg length (frames_pop hpop)
  rw [length_cons, length_frames, length_frames, hend] at hlengths
  exact Nat.succ.inj hlengths.symm

theorem frameAt?_of_scope (hlt : height < env.depth) :
    left.frameAt? height = ((env.push id t).after actions).frameAt? height :=
  frameAt?_pop hpop (by rwa [depth_of_scope hend hpop])

include hkeeps

theorem slot?_of_scope (hs : env.slot? p = some s) :
    left.slot? p = some (s.overwrite ((env.push id t).writes p actions)) := by
  have hlt := height_lt_of_slot? hs
  have hentered : (env.push id t).slot? p = some s := by
    rw [slot?, frameAt?_push, if_neg (Nat.ne_of_lt hlt)]
    exact hs
  have hinside := slot?_after hentered (hkeeps.of_le (Nat.le_of_lt hlt)) (hkeeps.spares hlt)
  rw [slot?, frameAt?_of_scope hend hpop hlt]
  exact hinside

theorem persists_of_scope : Forall₂ Frame.Persists env.frames left.frames := by
  have hdepth := depth_of_scope hend hpop
  -- frames are compared height by height, and of each the slots by their numbers
  rw [← forall₂_reverse_iff]
  refine forall₂_of_getElem? (by simp [hdepth]) fun height g g' hg hg' => ?_
  have hlt : height < env.depth := by simpa using (List.getElem?_eq_some_iff.mp hg).1
  have hshape : g'.shape = g.shape := by
    have hinside := shape_after hkeeps hlt
    rw [← frameAt?_of_scope hend hpop hlt, frameAt?_push, if_neg (Nat.ne_of_lt hlt), frameAt?,
      frameAt?, hg, hg'] at hinside
    exact Option.some.inj hinside
  simp only [Frame.shape, Prod.mk.injEq] at hshape
  obtain ⟨htemplate, hindex, hsize⟩ := hshape
  refine ⟨htemplate.symm, hindex.symm, forall₂_of_getElem? hsize.symm fun n a b ha hb => ?_⟩
  rw [Array.getElem?_toList] at ha hb
  have hslot : env.slot? ⟨height, n⟩ = some a := by simp [slot?, frameAt?, hg, ha]
  have hafter := slot?_of_scope hkeeps hend hpop hslot
  rw [slot?, frameAt?, hg', Option.bind_some, hb] at hafter
  cases hafter
  exact a.persists_overwrite _

end Scope

/-! ## Lookups -/

section Lookups

variable {env' : Environment} (h : Forall₂ Frame.Persists env.frames env'.frames)
include h

theorem find?_of_persists (m : Multiname) :
    Option.Rel (Binding.Related Slot.Persists) (env.find? m) (env'.find? m) :=
  findIn_related (h.imp fun _ _ hfg => hfg.related m) m.agree_of_persists 0

theorem place?_of_persists (m : Multiname) : env'.place? m = env.place? m := by
  have hlength : env.outer.length = env'.outer.length := Nat.succ.inj h.length_eq
  have hfound := find?_of_persists h m
  unfold place?
  generalize env.find? m = o at hfound ⊢
  generalize env'.find? m = o' at hfound ⊢
  cases hfound with
  | none => rfl
  | some hbc => simp only [Option.map_some, hbc.distance, hbc.index, hlength]

theorem distance?_of_persists (m : Multiname) : env'.distance? m = env.distance? m := by
  have hfound := find?_of_persists h m
  unfold distance?
  generalize env.find? m = o at hfound ⊢
  generalize env'.find? m = o' at hfound ⊢
  cases hfound with
  | none => rfl
  | some hbc => simp only [Option.map_some, hbc.distance]

theorem find?_eq_of_persists (hslot : ∀ p, env.place? m = some p → env'.slot? p = env.slot? p) :
    env'.find? m = env.find? m := by
  have hplace := place?_of_persists h m
  have hfound := find?_of_persists h m
  cases hb : env.find? m with
  | none =>
    rw [hb] at hfound
    cases hc : env'.find? m with
    | none => rfl
    | some c =>
      rw [hc] at hfound
      cases hfound
  | some b =>
    rw [hb, rel_some_left] at hfound
    obtain ⟨c, hc, hbc⟩ := hfound
    obtain ⟨p, hp, -, -, hbslot⟩ := place?_of_find? hb
    obtain ⟨q, hq, -, -, hcslot⟩ := place?_of_find? hc
    -- both bindings stand at one place, whose slot is the same
    obtain rfl : p = q := Option.some.inj (hp.symm.trans (hplace.symm.trans hq))
    have hsame : b.slot = c.slot :=
      Option.some.inj (hbslot.symm.trans ((hslot p hp).symm.trans hcslot))
    obtain ⟨distance, index, slot⟩ := b
    obtain ⟨distance', index', slot'⟩ := c
    obtain ⟨rfl, rfl, -⟩ := hbc
    cases hsame
    exact hc

end Lookups

/-- A scope that is entered, whatever happens in it and in the scopes within, and left: around it
there are the frames that were there, of the same templates, and their slots in the same order,
with the same names and flags; each slot is what it was, overwritten with what was written to it
from inside. So every reference resolves as it did before, and reads as it did unless there was a
write to the slot it resolves to. -/
theorem scopes_are_isolated (env : Environment) (id : UInt16) (t : Template)
    (actions : List Action) (hkeeps : (env.push id t).Keeps env.depth actions)
    (hend : ((env.push id t).after actions).depth = env.depth + 1) :
    env.Isolated (.push id t :: actions ++ [.pop]) := by
  obtain ⟨f, left, hpop⟩ := pop_of_depth (by rw [hend]; exact Nat.succ_lt_succ (Nat.succ_pos _))
  have hleft : env.after (.push id t :: actions ++ [.pop]) = left := by
    rw [after_append]
    simp only [after, foldl_cons, foldl_nil, act] at hpop ⊢
    rw [hpop]
  -- entering and leaving the scope writes nothing
  have hwrites (p : Place) : env.writes p (.push id t :: actions ++ [.pop]) =
      (env.push id t).writes p actions := by
    rw [writes_append]
    simp [writes, written?, act]
  have hframes := persists_of_scope hkeeps hend hpop
  refine ⟨?_, policy_after .., ?_, fun p s hs => ?_, ?_, ?_, fun m policy phase ambient hno => ?_⟩
  all_goals rw [hleft]
  · exact depth_of_scope hend hpop
  · exact hframes
  · rw [hwrites]
    exact slot?_of_scope hkeeps hend hpop hs
  · exact place?_of_persists hframes
  · exact distance?_of_persists hframes
  · have hfind : left.find? m = env.find? m := by
      refine find?_eq_of_persists hframes fun p hp => ?_
      obtain ⟨b, -, -, -, hb⟩ := place?_eq_some hp
      rw [slot?_of_scope hkeeps hend hpop hb, ← hwrites, hno p hp, hb, Slot.overwrite_nil]
    have hwith (env : Environment) : (env.withPolicy policy).find? m = env.find? m := rfl
    simp only [Environment.read, hwith, hfind]
    rfl

/-- One write goes to the frame around the scope, the other to a binding that shadows it there. -/
theorem isolated_with_one_write :
    let outer : Multiname := .unqualified ⟨1⟩
    let inner : Multiname := .unqualified ⟨2⟩
    let env := ofBase (.instantiate 0 ⟨none, [⟨outer.declarationName, .none⟩]⟩)
    let within : List Action := [.write inner (.int 1) true, .write outer (.int 2) true,
      .push 2 ⟨none, []⟩, .define outer.declarationName (.int 3) .none,
      .write outer (.int 4) true, .pop]
    let all := .push 1 ⟨some 0, []⟩ :: within ++ [.pop]
    env.Isolated all ∧ env.writes ⟨0, 0⟩ all = [.int 2] ∧
      ((env.after all).find? outer).map (·.slot.value) = some (.int 2) := by
  intro outer inner env within all
  exact ⟨scopes_are_isolated env 1 ⟨some 0, []⟩ within (by cbv) (by cbv), by cbv, by cbv⟩

end Environment

end ScopeMachine
