import ScopeMachine.Environment.Basic
import ScopeMachine.Proofs.Related

/-!
# What lookups find

A lookup takes notice of the names of slots and of the index, and of nothing else a slot holds. So in
frames whose slots are related one by one, two references that answer alike to related slots find
related slots: of one number (`Frame.Related.find?`), as far out (`findIn_related`).
-/

namespace ScopeMachine

open List

structure Multiname.Agree (R : Slot → Slot → Prop) (m n : Multiname) : Prop where
  accepts : ∀ a b, R a b → m.accepts a.name = n.accepts b.name
  rank : ∀ a b, R a b → m.rank a.name = n.rank b.name

structure Frame.Related (R : Slot → Slot → Prop) (m n : Multiname) (f g : Frame) : Prop where
  slots : Forall₂ R f.slots.toList g.slots.toList
  slotsNamed : f.slotsNamed m.name = g.slotsNamed n.name

def Frame.Hit.Related (R : Slot → Slot → Prop) (c d : Nat × Slot) : Prop := c.1 = d.1 ∧ R c.2 d.2

structure Binding.Related (R : Slot → Slot → Prop) (b c : Binding) : Prop where
  distance : b.distance = c.distance
  index : b.index = c.index
  slot : R b.slot c.slot

variable {R : Slot → Slot → Prop} {m n : Multiname}

namespace Frame

variable {f g : Frame}

theorem Related.candidates (h : f.Related R m n g) (hm : Multiname.Agree R m n) :
    Forall₂ (Hit.Related R) (f.candidates m) (g.candidates n) := by
  unfold Frame.candidates
  -- the same numbers are looked at, and of each the slots are related
  rw [h.slotsNamed]
  refine rel_filterMap (R := Eq) ?_ (forall₂_refl _)
  rintro k _ rfl
  beta_reduce
  rcases forall₂_toArray_cases h.slots k with ⟨hf, hg⟩ | ⟨a, b, hf, hg, hab⟩
  · simp only [hf, hg]
    exact .none
  · have haccepts := hm.accepts a b hab
    simp only [hf, hg, Option.filter_some, haccepts]
    split
    · exact .some ⟨rfl, hab⟩
    · exact .none

theorem Related.find? (h : f.Related R m n g) (hm : Multiname.Agree R m n) :
    Option.Rel (Hit.Related R) (f.find? m) (g.find? n) :=
  forall₂_minOn? (h.candidates hm) fun c d hcd => hm.rank c.2 d.2 hcd.2

theorem mem_candidates_of_find? (h : f.find? m = some c) : c ∈ f.candidates m :=
  List.minOn?_mem h

theorem exists_find?_of_mem (h : c ∈ f.candidates m) : ∃ d, f.find? m = some d :=
  Option.isSome_iff_exists.mp (List.isSome_minOn?_of_mem h)

theorem rank_le_of_find? (h : f.find? m = some c) (hd : d ∈ f.candidates m) :
    m.rank c.2.name ≤ m.rank d.2.name := by
  have hle := List.apply_get_minOn?_le_of_mem (f := fun c => m.rank c.2.name) hd
  simpa [show (f.candidates m).minOn? (fun c => m.rank c.2.name) = some c from h] using hle

theorem slots_of_find? (h : f.find? m = some (k, s)) : f.slots[k]? = some s := by
  have hmem := mem_candidates_of_find? h
  simp only [Frame.candidates, mem_filterMap, Option.map_eq_some_iff, Option.filter_eq_some_iff,
    Prod.mk.injEq] at hmem
  obtain ⟨_, -, _, ⟨hs, -⟩, rfl, rfl⟩ := hmem
  exact hs

end Frame

namespace Environment

theorem findIn_related (h : Forall₂ (Frame.Related R m n) fs gs) (hm : Multiname.Agree R m n)
    (d : Nat) : Option.Rel (Binding.Related R) (findIn m d fs) (findIn n d gs) := by
  induction h generalizing d with
  | nil => exact .none
  | @cons f g _ _ hfg _ ih =>
    have hfound := hfg.find? hm
    unfold findIn
    generalize f.find? m = o at hfound ⊢
    generalize g.find? n = o' at hfound ⊢
    cases hfound with
    | none => exact ih (d + 1)
    | some hcd => exact .some ⟨rfl, hcd.1, hcd.2⟩

theorem findIn_eq_some (h : findIn m d fs = some b) :
    ∃ k f, b.distance = d + k ∧ fs[k]? = some f ∧ f.find? m = some (b.index, b.slot) := by
  induction fs generalizing d with
  | nil => cases h
  | cons f fs ih =>
    unfold findIn at h
    split at h
    next hf =>
      cases h
      exact ⟨0, f, rfl, rfl, hf⟩
    next =>
      obtain ⟨k, g, hd, hg, hfound⟩ := ih h
      exact ⟨k + 1, g, by omega, by simpa using hg, hfound⟩

theorem find?_eq_some {env : Environment} (h : env.find? m = some b) :
    ∃ f, env.frames[b.distance]? = some f ∧ f.find? m = some (b.index, b.slot) := by
  obtain ⟨k, f, hk, hf, hfound⟩ := findIn_eq_some h
  obtain rfl : b.distance = k := by omega
  exact ⟨f, hf, hfound⟩

end Environment

end ScopeMachine
