import ScopeMachine.Proofs.Register.Mask
import ScopeMachine.Register.Architecture

/-!
# Consistent descriptions

The check of a register set finds no fault exactly if its names and masks agree, code by code:
`RegisterSet.fault?_eq_none_iff`. The check of an architecture adds what concerns both classes.
-/

namespace ScopeMachine

theorem ite_some_eq_none {p : Prop} [Decidable p] {a : α} {o : Option α} :
    (if p then some a else o) = none ↔ ¬p ∧ o = none := by
  split <;> simp_all

namespace RegisterSet

variable {s : RegisterSet}

structure Consistent (s : RegisterSet) : Prop where
  total_le : s.total ≤ 32
  names_ne : ∀ n ∈ s.names, n ≠ ""
  names_nodup : s.names.Nodup
  inside : ∀ role c, (s.mask role).contains c = true → c.toNat < s.total
  all : ∀ c, s.all.contains c = decide (c.toNat < s.total)
  overlap : ∀ c, s.volatile.contains c = true → s.nonVolatile.contains c = false
  allocatable : ∀ c, s.allocatable.contains c = (s.all.contains c && !s.reserved.contains c)
  count : s.allocatable.count = s.allocatableCount
  classified : ∀ c, s.allocatable.contains c = true →
    s.volatile.contains c = true ∨ s.nonVolatile.contains c = true
  temp : ∀ c, s.temp.contains c = (s.volatile.contains c && !s.reserved.contains c)

theorem nameFault?_eq_none_iff {names : List String} :
    s.nameFault? code earlier names = none ↔
      (∀ n ∈ names, n ≠ "") ∧ names.Nodup ∧ ∀ n ∈ names, n ∉ earlier := by
  induction names generalizing code earlier with
  | nil => simp [nameFault?]
  | cons n rest ih =>
    by_cases hempty : n = ""
    · simp [nameFault?, hempty]
    by_cases hmem : n ∈ earlier
    · simp [nameFault?, hempty, hmem]
    -- the name is good, and counts among the earlier ones for the rest
    rw [nameFault?, if_neg hempty, if_neg hmem, ih]
    simp only [List.nodup_cons, List.mem_cons, not_or, forall_eq_or_imp]
    constructor
    · rintro ⟨hne, hnodup, hnew⟩
      exact ⟨⟨hempty, hne⟩, ⟨fun h => (hnew n h).1 rfl, hnodup⟩, hmem, fun x hx => (hnew x hx).2⟩
    · rintro ⟨⟨-, hne⟩, ⟨hn, hnodup⟩, -, hnew⟩
      exact ⟨hne, hnodup, fun x hx => ⟨fun heq => hn (heq ▸ hx), hnew x hx⟩⟩

theorem strayRole?_eq_none_iff (h : s.total ≤ 32) :
    s.strayRole? = none ↔ ∀ role c, (s.mask role).contains c = true → c.toNat < s.total := by
  have hlist : ∀ role, role ∈ Role.list := by
    intro role
    cases role <;> decide
  simp [strayRole?, hlist, Mask.isSubset_iff, Mask.contains_low h]

theorem maskFault?_eq_none_iff (h : s.total ≤ 32) :
    s.maskFault? = none ↔
      (∀ c, s.all.contains c = decide (c.toNat < s.total)) ∧
        (∀ c, s.volatile.contains c = true → s.nonVolatile.contains c = false) ∧
        (∀ c, s.allocatable.contains c = (s.all.contains c && !s.reserved.contains c)) ∧
        s.allocatable.count = s.allocatableCount ∧
        (∀ c, s.allocatable.contains c = true →
          s.volatile.contains c = true ∨ s.nonVolatile.contains c = true) ∧
        ∀ c, s.temp.contains c = (s.volatile.contains c && !s.reserved.contains c) := by
  simp only [maskFault?, ite_some_eq_none, ne_eq, Classical.not_not, Bool.not_eq_true',
    Bool.not_eq_false, Mask.isEmpty_iff, Mask.eq_iff, Mask.contains_low h, Mask.contains_intersect,
    Mask.contains_without, Mask.contains_union, Bool.and_eq_false_imp, Bool.not_eq_false',
    Bool.or_eq_true, and_true]

/-- The checks one after the other, each relying on those before it, come to consistency. -/
theorem fault?_eq_none_iff : s.fault? = none ↔ s.Consistent := by
  constructor
  -- each test is read under the clauses that those before it have given
  · intro h
    unfold fault? at h
    split at h
    · cases h
    next hfew =>
      have hle : s.total ≤ 32 := Nat.le_of_not_lt hfew
      split at h
      · cases h
      next hnames =>
        obtain ⟨hne, hnodup, -⟩ := nameFault?_eq_none_iff.mp hnames
        split at h
        · cases h
        next hroles =>
          have hinside := (strayRole?_eq_none_iff hle).mp hroles
          obtain ⟨hall, hoverlap, halloc, hcount, hclassified, htemp⟩ :=
            (maskFault?_eq_none_iff hle).mp h
          exact ⟨hle, hne, hnodup, hinside, hall, hoverlap, halloc, hcount, hclassified, htemp⟩
  · intro h
    have hle := h.total_le
    have hnames : s.nameFault? 0 [] s.names = none :=
      nameFault?_eq_none_iff.mpr ⟨h.names_ne, h.names_nodup, by simp⟩
    have hroles : s.strayRole? = none := (strayRole?_eq_none_iff hle).mpr h.inside
    have hmasks : s.maskFault? = none :=
      (maskFault?_eq_none_iff hle).mpr
        ⟨h.all, h.overlap, h.allocatable, h.count, h.classified, h.temp⟩
    simp [fault?, Mask.capacity, Nat.not_lt.mpr hle, hnames, hroles, hmasks]

end RegisterSet

namespace Architecture

variable {a : Architecture}

structure Consistent (a : Architecture) : Prop where
  general : a.general.Consistent
  float : a.float.Consistent
  stackPointer : a.general.reserved.contains a.stackPointer = true
  slotSize : isPowerOfTwo a.frame.stackSlotSize = true

theorem fault?_eq_none_iff : a.fault? = none ↔ a.Consistent := by
  constructor
  · intro h
    unfold fault? at h
    split at h
    · cases h
    next hgeneral =>
      split at h
      · cases h
      next hfloat =>
        simp only [ite_some_eq_none, Bool.not_eq_true', Bool.not_eq_false, and_true] at h
        exact ⟨RegisterSet.fault?_eq_none_iff.mp hgeneral, RegisterSet.fault?_eq_none_iff.mp hfloat,
          h.1, h.2⟩
  · intro h
    have hgeneral := RegisterSet.fault?_eq_none_iff.mpr h.general
    have hfloat := RegisterSet.fault?_eq_none_iff.mpr h.float
    simp [fault?, hgeneral, hfloat, h.stackPointer, h.slotSize]

theorem Consistent.registers (h : a.Consistent) (kind : RegisterClass) :
    (a.registers kind).Consistent := by
  cases kind with
  | general => exact h.general
  | float => exact h.float

end Architecture

end ScopeMachine
