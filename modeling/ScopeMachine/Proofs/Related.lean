import Mathlib.Data.List.Forall2

/-!
# Relations between entries

What functions on lists keep of a relation between the entries of two lists, and results that are
related in failure and in success.
-/

namespace ScopeMachine

open List

inductive ExceptRel (R : ε → ε' → Prop) (S : α → β → Prop) : Except ε α → Except ε' β → Prop
  | error : R e e' → ExceptRel R S (.error e) (.error e')
  | ok : S a b → ExceptRel R S (.ok a) (.ok b)

theorem ExceptRel.imp {R R' : ε → ε' → Prop} {S : α → β → Prop} (h : ExceptRel R S x y)
    (hR : ∀ e f, R e f → R' e f) : ExceptRel R' S x y := by
  cases h with
  | error he => exact .error (hR _ _ he)
  | ok hab => exact .ok hab

theorem forall₂_getElem? {R : α → β → Prop} (h : Forall₂ R xs ys) (n : Nat) :
    Option.Rel R xs[n]? ys[n]? := by
  induction h generalizing n with
  | nil => exact .none
  | cons hxy _ ih =>
    cases n with
    | zero => exact .some hxy
    | succ n => simpa using ih n

theorem forall₂_of_getElem? {R : α → β → Prop} {xs : List α} {ys : List β}
    (hlength : xs.length = ys.length)
    (h : ∀ (n : Nat) x y, xs[n]? = some x → ys[n]? = some y → R x y) : Forall₂ R xs ys := by
  refine forall₂_iff_get.mpr ⟨hlength, fun n hx hy => h n _ _ ?_ ?_⟩
  · simp [hx]
  · simp [hy]

theorem rel_some_left {R : α → β → Prop} :
    Option.Rel R (some x) o ↔ ∃ y, o = some y ∧ R x y := by
  constructor
  · rintro (h | -)
    exact ⟨_, rfl, h⟩
  · rintro ⟨y, rfl, h⟩
    exact .some h

theorem rel_some_right {R : α → β → Prop} :
    Option.Rel R o (some y) ↔ ∃ x, o = some x ∧ R x y := by
  constructor
  · rintro (h | -)
    exact ⟨_, rfl, h⟩
  · rintro ⟨x, rfl, h⟩
    exact .some h

theorem forall₂_toArray_cases {R : α → β → Prop} {xs : Array α} {ys : Array β}
    (h : Forall₂ R xs.toList ys.toList) (n : Nat) : (xs[n]? = none ∧ ys[n]? = none) ∨
      ∃ x y, xs[n]? = some x ∧ ys[n]? = some y ∧ R x y := by
  have hn := forall₂_getElem? h n
  simp only [Array.getElem?_toList] at hn
  generalize xs[n]? = o at hn
  generalize ys[n]? = o' at hn
  cases hn with
  | none => exact .inl ⟨rfl, rfl⟩
  | some hxy => exact .inr ⟨_, _, rfl, rfl, hxy⟩

theorem forall₂_comp {R : α → γ → Prop} {S : β → γ → Prop} (h : Forall₂ R xs zs)
    (h' : Forall₂ S ys zs) : Forall₂ (fun x y => ∃ z, R x z ∧ S y z) xs ys := by
  induction h generalizing ys with
  | nil =>
    cases h'
    exact .nil
  | cons hx _ ih =>
    cases h' with
    | cons hy h' => exact .cons ⟨_, hx, hy⟩ (ih h')

theorem map_eq_of_forall₂ {R : α → β → Prop} (h : Forall₂ R xs ys) (hf : ∀ x y, R x y → f x = y) :
    xs.map f = ys := by
  induction h with
  | nil => rfl
  | cons hxy _ ih => rw [map_cons, hf _ _ hxy, ih]

theorem forall₂_modify {R : α → β → Prop} (h : Forall₂ R xs ys)
    (hfg : ∀ x y, xs[n]? = some x → R x y → R (f x) (g y)) :
    Forall₂ R (xs.modify n f) (ys.modify n g) := by
  induction h generalizing n with
  | nil => simp
  | cons hxy h ih =>
    cases n with
    | zero => exact .cons (hfg _ _ rfl hxy) h
    | succ n => exact .cons hxy (ih fun x y hx => hfg x y (by simpa using hx))

theorem forall₂_idxOf [DecidableEq α] [DecidableEq β] {R : α → β → Prop}
    (hR : Relator.BiUnique R) (h : Forall₂ R xs ys) (hxy : R x y) : xs.idxOf x = ys.idxOf y := by
  induction h with
  | nil => rfl
  | cons hab _ ih =>
    have hiff := Relator.rel_eq hR hab hxy
    simp only [idxOf_cons, ih, Bool.cond_eq_ite, beq_iff_eq, hiff]

/-- The least of related entries, by keys on which they agree, are related. -/
theorem forall₂_minOn? {R : α → β → Prop} {f : α → Nat} {g : β → Nat} (h : Forall₂ R xs ys)
    (hfg : ∀ x y, R x y → f x = g y) : Option.Rel R (xs.minOn? f) (ys.minOn? g) := by
  induction h with
  | nil => exact .none
  | @cons x y xs ys hxy _ ih =>
    rw [List.minOn?_cons, List.minOn?_cons]
    generalize xs.minOn? f = o at ih
    generalize ys.minOn? g = o' at ih
    cases ih with
    | none => exact .some hxy
    | some hab =>
      refine .some ?_
      simp only [Option.elim_some, minOn, hfg _ _ hxy, hfg _ _ hab]
      split <;> assumption

theorem forall₂_eraseDups [DecidableEq α] [DecidableEq β] {R : α → β → Prop}
    (hR : Relator.BiUnique R) (h : Forall₂ R xs ys) : Forall₂ R xs.eraseDups ys.eraseDups := by
  -- the lists without the copies of their heads are shorter
  induction hn : xs.length using Nat.strongRecOn generalizing xs ys with
  | ind n ih =>
    cases h with
    | nil => exact .nil
    | @cons x y xs ys hxy h =>
      rw [eraseDups_cons, eraseDups_cons]
      have hrest : Forall₂ R (xs.filter (!· == x)) (ys.filter (!· == y)) := by
        refine rel_filter (fun a b hab => ?_) h
        simpa using not_congr (Relator.rel_eq hR hab hxy)
      have hlt := length_filter_le (!· == x) xs
      rw [length_cons] at hn
      exact .cons hxy (ih _ (by omega) hrest rfl)

end ScopeMachine
