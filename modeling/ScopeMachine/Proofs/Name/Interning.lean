import Mathlib.Logic.Relator
import Mathlib.Order.Basic
import ScopeMachine.Name.Interner

/-!
# Interning

`i.Spells n s`: the interner `i` has the text `s` under the name `n`. Names and texts are one to one
(`biUnique_spells`). Interning only adds texts, so whatever is spelled stays spelled the same. It
fails at a text that is new when there is no name left (`tryIntern_cases`).
-/

namespace ScopeMachine.Interner

def Spells (i : Interner) (n : Name) (s : String) : Prop := i.texts[n.index]? = some s

/-- An interner is below another if that has the same texts under the same names, and maybe more. -/
instance : Preorder Interner where
  le i j := ∀ ⦃n s⦄, i.Spells n s → j.Spells n s
  le_refl _ _ _ h := h
  le_trans _ _ _ hij hjk _ _ h := hjk (hij h)

variable {i j : Interner}

theorem Spells.mono (h : i.Spells n s) (hij : i ≤ j) : j.Spells n s := hij h

theorem Spells.text (h : i.Spells n s) : i.text n = s := by
  simp [Interner.text, show i.texts[n.index]? = some s from h]

theorem get?_eq_some_iff : i.get? s = some n ↔ i.Spells n s := by
  obtain ⟨n⟩ := n
  simp [get?, Spells, i.numbers_eq_some]

theorem get?_eq_none_iff : i.get? s = none ↔ s ∉ i.texts.toList := by
  rw [Array.mem_toList_iff, Array.mem_iff_getElem?]
  constructor
  · rintro hnone ⟨n, hn⟩
    have hsome : i.get? s = some ⟨n⟩ := get?_eq_some_iff.mpr hn
    cases hnone.symm.trans hsome
  · intro habsent
    cases hget : i.get? s with
    | none => rfl
    | some n => exact absurd ⟨n.index, get?_eq_some_iff.mp hget⟩ habsent

/-- A name has one text, and a text has one name. -/
theorem biUnique_spells (i : Interner) : Relator.BiUnique i.Spells := by
  constructor
  · intro n m s hn hm
    have hn := (i.numbers_eq_some ..).mpr hn
    have hm := (i.numbers_eq_some ..).mpr hm
    obtain ⟨n⟩ := n
    obtain ⟨m⟩ := m
    simpa [hn] using hm
  · intro n s t hs ht
    exact Option.some.inj (hs.symm.trans ht)

/-! ## What interning does -/

theorem intern_spells (i : Interner) (s : String) : (i.intern s).2.Spells (i.intern s).1 s := by
  unfold intern
  split
  next n hn => exact (i.numbers_eq_some ..).mp hn
  next => simp [Spells]

theorem le_intern (i : Interner) (s : String) : i ≤ (i.intern s).2 := by
  unfold intern
  split
  · exact le_rfl
  · -- the new text stands behind all others
    intro n t hn
    have hlt := (Array.getElem?_eq_some_iff.mp hn).1
    simpa [Spells, Array.getElem?_push, Nat.ne_of_lt hlt] using hn

theorem size_mono (h : i ≤ j) : i.size ≤ j.size := by
  -- the last text of `i` has its number in `j`
  refine Nat.le_of_not_lt fun hlt => ?_
  obtain ⟨s, hs⟩ : ∃ s, i.Spells ⟨j.size⟩ s := ⟨_, Array.getElem?_eq_getElem hlt⟩
  have hin := (Array.getElem?_eq_some_iff.mp (h hs)).1
  exact Nat.lt_irrefl _ hin

theorem intern_of_spells (h : i.Spells n s) : i.intern s = (n, i) := by
  have hn : i.numbers[s]? = some n.index := (i.numbers_eq_some ..).mpr h
  unfold intern
  split
  next k hk =>
    cases hn.symm.trans hk
    rfl
  next hnone => cases hn.symm.trans hnone

theorem size_intern_of_get?_eq_none (h : i.get? s = none) :
    (i.intern s).2.size = i.size + 1 := by
  have hnone : i.numbers[s]? = none := by simpa [get?] using h
  unfold intern
  split
  next n hn => cases hnone.symm.trans hn
  next => simp [size]

theorem tryIntern_cases (i : Interner) (s : String) :
    (i.tryIntern s = (.ok (i.intern s).1, (i.intern s).2) ∧
        (i.intern s).2.size ≤ max i.size nameLimit) ∨
      i.tryIntern s = (.error (.overflow i.size), i) ∧ i.get? s = none ∧ nameLimit ≤ i.size := by
  unfold tryIntern
  cases hget : i.get? s with
  | some n =>
    rw [intern_of_spells (get?_eq_some_iff.mp hget)]
    exact .inl ⟨rfl, Nat.le_max_left ..⟩
  | none =>
    have hsize := size_intern_of_get?_eq_none hget
    by_cases hfull : nameLimit ≤ i.size
    · exact .inr ⟨if_pos hfull, rfl, hfull⟩
    · exact .inl ⟨if_neg hfull, by omega⟩

end ScopeMachine.Interner
