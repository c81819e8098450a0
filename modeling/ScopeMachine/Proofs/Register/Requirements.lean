import Mathlib.Logic.Basic
import ScopeMachine.Proofs.Register.Consistency

/-!
# What is asked of a description

All that is asked of a register set and of an architecture, one requirement after the other in the
order of the check (`RegisterSet.requirements`, `Architecture.requirements`). Each is said of names
and codes, and goes with the error that tells that it does not hold. A check finds no fault exactly
if all hold, and otherwise its fault is the error of the first that does not
(`check_reports_first_unmet`).
-/

namespace ScopeMachine

/-- Something that is asked of a description, and the error where it does not hold. -/
structure Requirement where
  holds : Prop
  error : RegisterError

inductive FirstUnmet : List Requirement → RegisterError → Prop
  | here : ¬r.holds → FirstUnmet (r :: rs) r.error
  | later : r.holds → FirstUnmet rs e → FirstUnmet (r :: rs) e

variable {r : Requirement} {rs ss : List Requirement} {fault fault' : Option RegisterError}

theorem firstUnmet_append :
    FirstUnmet (rs ++ ss) e ↔ FirstUnmet rs e ∨ (∀ r ∈ rs, r.holds) ∧ FirstUnmet ss e := by
  induction rs with
  | nil =>
    have hnil : ¬FirstUnmet [] e := nofun
    simp [hnil]
  | cons r rs ih =>
    constructor
    · intro h
      cases h with
      | here hr => exact .inl (.here hr)
      | later hr h =>
        rcases ih.mp h with h | ⟨hrs, h⟩
        · exact .inl (.later hr h)
        · exact .inr ⟨List.forall_mem_cons.mpr ⟨hr, hrs⟩, h⟩
    · rintro (h | ⟨hrs, h⟩)
      · cases h with
        | here hr => exact .here hr
        | later hr h => exact .later hr (ih.mpr (.inl h))
      · obtain ⟨hr, hrs⟩ := List.forall_mem_cons.mp hrs
        exact .later hr (ih.mpr (.inr ⟨hrs, h⟩))

theorem exists_firstUnmet_iff : (∃ e, FirstUnmet rs e) ↔ ∃ r ∈ rs, ¬r.holds := by
  induction rs with
  | nil => exact ⟨nofun, nofun⟩
  | cons r rs ih =>
    constructor
    · rintro ⟨e, h⟩
      cases h with
      | here hr => exact ⟨r, .head _, hr⟩
      | later _ h =>
        obtain ⟨q, hq, hunmet⟩ := ih.mp ⟨e, h⟩
        exact ⟨q, .tail _ hq, hunmet⟩
    · rintro ⟨q, hq, hunmet⟩
      by_cases hr : r.holds
      · rcases List.mem_cons.mp hq with rfl | hq
        · exact absurd hr hunmet
        · obtain ⟨e, h⟩ := ih.mpr ⟨q, hq, hunmet⟩
          exact ⟨e, .later hr h⟩
      · exact ⟨r.error, .here hr⟩

/-! ## Checks of requirements -/

/-- The outcome of a check is the error of the first requirement that does not hold, if any. -/
def Reports (fault : Option RegisterError) (rs : List Requirement) : Prop :=
  ∀ e, fault = some e ↔ FirstUnmet rs e

namespace Reports

theorem eq_none_iff (h : Reports fault rs) : fault = none ↔ ∀ r ∈ rs, r.holds := by
  have hsome : (∃ e, fault = some e) ↔ ∃ r ∈ rs, ¬r.holds :=
    (exists_congr h).trans exists_firstUnmet_iff
  rw [← Option.not_isSome_iff_eq_none, Option.isSome_iff_exists, hsome]
  simp

theorem nil : Reports none [] := fun _ => ⟨nofun, nofun⟩

/-- A requirement that is tested first; the other tests may rely on it. -/
theorem cons {p holds : Prop} {error : RegisterError} [Decidable p] (hp : p ↔ ¬holds)
    (h : holds → Reports fault rs) :
    Reports (if p then some error else fault) (⟨holds, error⟩ :: rs) := by
  intro e
  by_cases hr : holds
  · rw [if_neg (by simpa [hp] using hr), h hr]
    refine ⟨.later hr, fun hfirst => ?_⟩
    cases hfirst with
    | here hunmet => exact absurd hr hunmet
    | later _ h => exact h
  · rw [if_pos (hp.mpr hr), Option.some.injEq]
    constructor
    · rintro rfl
      exact .here hr
    · intro hfirst
      cases hfirst with
      | here => rfl
      | later hmet => exact absurd hmet hr

/-- Requirements that are checked one part after the other; the later part may rely on the earlier. -/
theorem append (h : Reports fault rs) (h' : (∀ r ∈ rs, r.holds) → Reports fault' ss) :
    Reports (fault.or fault') (rs ++ ss) := by
  intro e
  rw [firstUnmet_append]
  cases hfault : fault with
  | some d =>
    have hunmet : ¬∀ r ∈ rs, r.holds := fun hrs => by simp [h.eq_none_iff.mpr hrs] at hfault
    rw [Option.some_or, ← hfault, h e]
    simp [hunmet]
  | none =>
    have hrs := h.eq_none_iff.mp hfault
    rw [Option.none_or, h' hrs e, ← h e, hfault]
    simpa using fun _ => hrs

/-- Requirements of the entries of a list, which is searched for the first bad one. -/
theorem find? {f : α → Requirement} {p : α → Bool} (xs : List α)
    (hp : ∀ x, p x = true ↔ ¬(f x).holds) :
    Reports ((xs.find? p).map fun x => (f x).error) (xs.map f) := by
  induction xs with
  | nil => exact nil
  | cons x xs ih =>
    have hcons : Reports (if p x then some (f x).error
        else (xs.find? p).map fun x => (f x).error) (f x :: xs.map f) := cons (hp x) fun _ => ih
    rw [List.find?_cons, List.map_cons]
    cases hpx : p x <;> simpa [hpx] using hcons

end Reports

/-! ## Register sets -/

namespace RegisterSet

variable {s : RegisterSet}

def nameRequirements (s : RegisterSet) (code : Nat) (n : String) : List Requirement :=
  [⟨n ≠ "", .emptyName s.kind (UInt8.ofNat code)⟩,
    ⟨n ∉ s.names.take code, .duplicateName s.kind (UInt8.ofNat code)⟩]

def namesRequirements (s : RegisterSet) (code : Nat) (names : List String) : List Requirement :=
  (names.zipIdx code).flatMap fun (n, code) => s.nameRequirements code n

def roleRequirement (s : RegisterSet) (role : Role) : Requirement where
  holds := ∀ c, (s.mask role).contains c = true → c.toNat < s.total
  error := .outsideClass s.kind role (s.mask role)

def allocatableCodes (s : RegisterSet) : Nat :=
  (List.range 256).countP fun k => s.allocatable.contains (UInt8.ofNat k)

def maskRequirements (s : RegisterSet) : List Requirement :=
  [⟨∀ c, s.all.contains c = decide (c.toNat < s.total), .outsideClass s.kind .all s.all⟩,
    ⟨∀ c, s.volatile.contains c = true → s.nonVolatile.contains c = false,
      .overlappingSaveRoles s.kind (s.volatile.intersect s.nonVolatile)⟩,
    ⟨∀ c, s.allocatable.contains c = (s.all.contains c && !s.reserved.contains c),
      .allocatableMismatch s.kind (s.all.without s.reserved) s.allocatable⟩,
    ⟨s.allocatableCodes = s.allocatableCount,
      .allocatableCountMismatch s.kind s.allocatableCount s.allocatableCodes⟩,
    ⟨∀ c, s.allocatable.contains c = true →
        s.volatile.contains c = true ∨ s.nonVolatile.contains c = true,
      .unclassifiedAllocatable s.kind (s.allocatable.without (s.volatile.union s.nonVolatile))⟩,
    ⟨∀ c, s.temp.contains c = (s.volatile.contains c && !s.reserved.contains c),
      .tempMismatch s.kind (s.volatile.without s.reserved) s.temp⟩]

def requirements (s : RegisterSet) : List Requirement :=
  ⟨s.total ≤ 32, .tooManyRegisters s.kind s.total⟩ ::
    (s.namesRequirements 0 s.names ++ (Role.list.map s.roleRequirement ++ s.maskRequirements))

theorem nameFault?_reports {front rest : List String} (hnames : s.names = front ++ rest)
    (hearlier : ∀ n, n ∈ earlier ↔ n ∈ front) :
    Reports (s.nameFault? front.length earlier rest) (s.namesRequirements front.length rest) := by
  induction rest generalizing front earlier with
  | nil => exact .nil
  | cons n rest ih =>
    have htake : s.names.take front.length = front := by rw [hnames, List.take_left]
    have hrest : Reports (s.nameFault? (front.length + 1) (n :: earlier) rest)
        (s.namesRequirements (front.length + 1) rest) := by
      -- the name goes over to the earlier ones
      have hnext := @ih (n :: earlier) (front ++ [n]) (by simpa using hnames)
        fun m => by simp [hearlier, or_comm]
      simpa using hnext
    refine .cons (by simp) fun _ => .cons ?_ fun _ => hrest
    simp [hearlier, htake]

theorem strayRole?_reports (h : s.total ≤ 32) :
    Reports (s.strayRole?.map fun role => .outsideClass s.kind role (s.mask role))
      (Role.list.map s.roleRequirement) := by
  refine Reports.find? (f := s.roleRequirement) Role.list fun role => ?_
  rw [Bool.not_eq_true', ← Bool.not_eq_true, Mask.isSubset_iff]
  simp [roleRequirement, Mask.contains_low h]

theorem maskFault?_reports (h : s.total ≤ 32) : Reports s.maskFault? s.maskRequirements := by
  have hcount : s.allocatableCodes = s.allocatable.count := s.allocatable.countP_contains
  rw [maskRequirements, hcount]
  refine .cons ?_ fun _ => .cons ?_ fun _ => .cons ?_ fun _ => .cons ?_ fun _ => .cons ?_ fun _ =>
    .cons ?_ fun _ => .nil
  · simp [Mask.eq_iff, Mask.contains_low h]
  · rw [Bool.not_eq_true', ← Bool.not_eq_true, Mask.isEmpty_iff]
    simp
  · simp [Mask.eq_iff]
  · exact Iff.rfl
  · rw [Bool.not_eq_true', ← Bool.not_eq_true, Mask.isEmpty_iff]
    simp
  · simp [Mask.eq_iff]

theorem fault?_reports (s : RegisterSet) : Reports s.fault? s.requirements := by
  have hfault : s.fault? = if Mask.capacity < s.total then some (.tooManyRegisters s.kind s.total)
      else (s.nameFault? 0 [] s.names).or
        ((s.strayRole?.map fun role => .outsideClass s.kind role (s.mask role)).or s.maskFault?) := by
    unfold fault?
    cases s.nameFault? 0 [] s.names <;> cases s.strayRole? <;> rfl
  rw [hfault]
  refine .cons Nat.not_le.symm fun hfew => ?_
  have hnames : Reports (s.nameFault? 0 [] s.names) (s.namesRequirements 0 s.names) :=
    nameFault?_reports (List.nil_append _).symm fun _ => Iff.rfl
  exact hnames.append fun _ => (strayRole?_reports hfew).append fun _ => maskFault?_reports hfew

end RegisterSet

/-! ## Architectures -/

namespace Architecture

def requirements (a : Architecture) : List Requirement :=
  a.general.requirements ++ (a.float.requirements ++
    [⟨a.stackPointer.toNat < a.general.total ∧ a.general.reserved.contains a.stackPointer = true,
        .stackPointerNotReserved a.stackPointer⟩,
      ⟨∃ k, a.frame.stackSlotSize = 2 ^ k, .badStackSlotSize a.frame.stackSlotSize⟩])

theorem isPowerOfTwo_iff : isPowerOfTwo n = true ↔ ∃ k, n = 2 ^ k := by
  have hiff := Nat.ne_zero_and_sub_one_eq_zero_iff_isPowerOfTwo (n := n)
  simpa [isPowerOfTwo, Nat.isPowerOfTwo] using hiff

theorem fault?_reports (a : Architecture) : Reports a.fault? a.requirements := by
  have hfault : a.fault? = a.general.fault?.or (a.float.fault?.or
      (if !a.general.reserved.contains a.stackPointer then
        some (.stackPointerNotReserved a.stackPointer)
      else if !isPowerOfTwo a.frame.stackSlotSize then some (.badStackSlotSize a.frame.stackSlotSize)
      else none)) := by
    unfold fault?
    cases a.general.fault? <;> cases a.float.fault? <;> rfl
  rw [hfault]
  refine a.general.fault?_reports.append fun hgeneral => a.float.fault?_reports.append fun _ => ?_
  -- a reserved register is of the class, as the class has been checked
  have hnone := a.general.fault?_reports.eq_none_iff.mpr hgeneral
  have hinside := (RegisterSet.fault?_eq_none_iff.mp hnone).inside .reserved a.stackPointer
  refine .cons ?_ fun _ => .cons ?_ fun _ => .nil
  · rw [Bool.not_eq_true', ← Bool.not_eq_true, not_iff_not]
    exact (and_iff_right_of_imp hinside).symm
  · simp [← isPowerOfTwo_iff]

end Architecture

/-- The check of a register set and the check of an architecture find no fault exactly if all that is
asked holds. Otherwise they report the first thing that does not hold, with the error that goes with
it. -/
theorem check_reports_first_unmet :
    (∀ s : RegisterSet, (s.fault? = none ↔ ∀ r ∈ s.requirements, r.holds) ∧
      ∀ e, s.fault? = some e ↔ FirstUnmet s.requirements e) ∧
    ∀ a : Architecture, (a.fault? = none ↔ ∀ r ∈ a.requirements, r.holds) ∧
      ∀ e, a.fault? = some e ↔ FirstUnmet a.requirements e :=
  ⟨fun s => ⟨s.fault?_reports.eq_none_iff, s.fault?_reports⟩,
    fun a => ⟨a.fault?_reports.eq_none_iff, a.fault?_reports⟩⟩

end ScopeMachine
