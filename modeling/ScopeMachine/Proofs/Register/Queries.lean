import ScopeMachine.Command.Registers
import ScopeMachine.Proofs.Register.Consistency

/-!
# Queries on consistent descriptions

A register set whose check finds no fault answers its queries as an allocator expects of it:
`RegisterSet.Reliable`. Names are unique in a class. The architectures of the catalogue pass the
check, so their reports are always given.
-/

namespace ScopeMachine

namespace RegisterSet

variable {s : RegisterSet}

structure Reliable (s : RegisterSet) : Prop where
  name : ∀ c, (∃ n, s.name c = .ok n) ↔ c.toNat < s.total
  codeOf? : ∀ n c, s.codeOf? n = some c ↔ c.toNat < s.total ∧ s.name c = .ok n
  /-- All codes of the class, in order, each with its name. -/
  registers : s.registers.map (·.1.toNat) = List.range s.total ∧
    ∀ r ∈ s.registers, s.name r.1 = .ok r.2
  /-- A register is reserved or allocatable, and not both. -/
  divided : ∀ c, c.toNat < s.total → s.isAllocatable c = !s.reserved.contains c
  count : (List.range 256).countP (fun k => s.isAllocatable (UInt8.ofNat k)) = s.allocatableCount
  allocatable : ∀ c, s.isAllocatable c = true →
    c.toNat < s.total ∧ s.classify c ≠ .unclassified ∧
      (s.temp.contains c = true ∨ s.nonVolatile.contains c = true)
  beyond : ∀ c, s.total ≤ c.toNat →
    (∀ role, (s.mask role).contains c = false) ∧ s.classify c = .unclassified

theorem name_eq_ok : s.name c = .ok n ↔ s.names[c.toNat]? = some n := by
  unfold name
  split <;> simp_all

theorem exists_name_iff : (∃ n, s.name c = .ok n) ↔ c.toNat < s.total := by
  simp only [name_eq_ok, List.getElem?_eq_some_iff]
  exact ⟨fun ⟨_, hc, _⟩ => hc, fun hc => ⟨_, hc, rfl⟩⟩

theorem lt_total_of_name (h : s.name c = .ok n) : c.toNat < s.total :=
  exists_name_iff.mp ⟨n, h⟩

theorem Consistent.name_injective (h : s.Consistent) (hc : s.name c = .ok n)
    (hd : s.name d = .ok n) : c = d := by
  have heq : s.names[c.toNat]? = s.names[d.toNat]? :=
    (name_eq_ok.mp hc).trans (name_eq_ok.mp hd).symm
  exact UInt8.toNat_inj.mp ((List.getElem?_inj (lt_total_of_name hc) h.names_nodup).mp heq)

theorem Consistent.code_lt (h : s.Consistent) (hk : k < s.total) : k < 256 :=
  Nat.lt_of_lt_of_le (Nat.lt_of_lt_of_le hk h.total_le) (by decide)

theorem Consistent.mem_names_iff (h : s.Consistent) : n ∈ s.names ↔ ∃ c, s.name c = .ok n := by
  simp only [name_eq_ok]
  constructor
  · intro hn
    obtain ⟨k, hk⟩ := List.getElem?_of_mem hn
    have hlt := h.code_lt (List.getElem?_eq_some_iff.mp hk).1
    exact ⟨UInt8.ofNat k, by rwa [UInt8.toNat_ofNat_of_lt' hlt]⟩
  · rintro ⟨c, hc⟩
    exact List.mem_of_getElem? hc

theorem Consistent.codeOf?_eq_some (h : s.Consistent) :
    s.codeOf? n = some c ↔ s.name c = .ok n := by
  rw [name_eq_ok]
  constructor
  · intro hcode
    obtain ⟨k, hk, rfl⟩ := Option.map_eq_some_iff.mp hcode
    obtain ⟨hidx, hlt⟩ := Option.filter_eq_some_iff.mp hk
    obtain ⟨hin, hn, -⟩ := List.idxOf?_eq_some_iff.mp hidx
    rw [UInt8.toNat_ofNat_of_lt' (of_decide_eq_true hlt), List.getElem?_eq_some_iff]
    exact ⟨hin, hn⟩
  · intro hn
    obtain ⟨hin, rfl⟩ := List.getElem?_eq_some_iff.mp hn
    -- the name stands nowhere else, so its first place is the code
    have hidx : s.names.idxOf? s.names[c.toNat] = some c.toNat := by
      refine List.idxOf?_eq_some_iff.mpr ⟨hin, rfl, fun j hj heq => ?_⟩
      have hjin := Nat.lt_trans hj hin
      have hsame : s.names[j]? = s.names[c.toNat]? := by simp [hjin, hin, heq]
      exact Nat.ne_of_lt hj ((List.getElem?_inj hjin h.names_nodup).mp hsame)
    have hlt := c.toNat_lt
    simp [codeOf?, hidx, Option.filter, hlt]

theorem Consistent.registers_eq (h : s.Consistent) :
    s.registers = s.names.zipIdx.map fun (n, code) => (UInt8.ofNat code, n) := by
  have hle : s.names.length ≤ 256 := Nat.le_trans h.total_le (by decide)
  rw [registers, List.take_of_length_le hle]

theorem Consistent.map_registers (h : s.Consistent) :
    s.registers.map (·.1.toNat) = List.range s.total := by
  have hsnd : s.names.zipIdx.map (·.2) = List.range s.total := by
    rw [List.zipIdx_map_snd, ← List.range_eq_range']
    rfl
  rw [h.registers_eq, List.map_map, ← hsnd]
  refine List.map_congr_left fun ⟨n, k⟩ hmem => ?_
  have hk : k < s.total := (List.getElem?_eq_some_iff.mp (List.mem_zipIdx_iff_getElem?.mp hmem)).1
  exact UInt8.toNat_ofNat_of_lt' (h.code_lt hk)

theorem Consistent.name_of_mem_registers (h : s.Consistent) (hr : r ∈ s.registers) :
    s.name r.1 = .ok r.2 := by
  rw [h.registers_eq] at hr
  obtain ⟨⟨n, k⟩, hmem, rfl⟩ := List.mem_map.mp hr
  have hn := List.mem_zipIdx_iff_getElem?.mp hmem
  have hk : k < s.total := (List.getElem?_eq_some_iff.mp hn).1
  rw [name_eq_ok, UInt8.toNat_ofNat_of_lt' (h.code_lt hk)]
  exact hn

/-! ## Roles -/

theorem classify_eq_unclassified :
    s.classify c = .unclassified ↔ s.volatile.contains c = false ∧ s.nonVolatile.contains c = false := by
  unfold classify
  split <;> simp_all

theorem Consistent.not_contains (h : s.Consistent) (hc : s.total ≤ c.toNat) (role : Role) :
    (s.mask role).contains c = false := by
  refine Bool.eq_false_iff.mpr fun hmem => ?_
  exact Nat.not_lt.mpr hc (h.inside role c hmem)

theorem Consistent.reliable (h : s.Consistent) : s.Reliable where
  name _ := exists_name_iff
  codeOf? n c := by
    rw [h.codeOf?_eq_some]
    exact ⟨fun hn => ⟨lt_total_of_name hn, hn⟩, fun hn => hn.2⟩
  registers := ⟨h.map_registers, fun r hr => h.name_of_mem_registers hr⟩
  divided c hc := by simp [isAllocatable, h.allocatable, h.all, hc]
  count := by
    -- the check counts the mask, an allocator asks for each code in turn
    rw [← h.count]
    exact s.allocatable.countP_contains
  allocatable c hc := by
    have hin := h.inside .allocatable c hc
    have hsaved := h.classified c hc
    have hunreserved : s.reserved.contains c = false := by
      simpa [isAllocatable, h.allocatable, h.all, hin] using hc
    refine ⟨hin, ?_, ?_⟩
    · rw [ne_eq, classify_eq_unclassified]
      rcases hsaved with hv | hv <;> simp [hv]
    · -- a volatile register that is not reserved may be used without saving it
      simpa [h.temp, hunreserved] using hsaved
  beyond c hc :=
    ⟨h.not_contains hc, classify_eq_unclassified.mpr
      ⟨h.not_contains hc .volatile, h.not_contains hc .nonVolatile⟩⟩

end RegisterSet

/-- What an allocator may rely on, whatever the description: all queries agree with the names and the
masks if the check finds no fault, and the stack pointer is a register that is never handed out. -/
theorem allocators_rely_on_the_check :
    (∀ s : RegisterSet, s.fault? = none → s.Reliable) ∧
      ∀ a : Architecture, a.fault? = none →
        (∃ n, a.general.name a.stackPointer = .ok n) ∧
          a.general.isAllocatable a.stackPointer = false ∧
          a.general.temp.contains a.stackPointer = false := by
  refine ⟨fun s hs => (RegisterSet.fault?_eq_none_iff.mp hs).reliable, fun a ha => ?_⟩
  obtain ⟨hgeneral, -, hreserved, -⟩ := Architecture.fault?_eq_none_iff.mp ha
  refine ⟨?_, ?_, ?_⟩
  · exact RegisterSet.exists_name_iff.mpr (hgeneral.inside .reserved _ hreserved)
  · simp [RegisterSet.isAllocatable, hgeneral.allocatable, hreserved]
  · simp [hgeneral.temp, hreserved]

/-- On 64-bit x86 fourteen registers may be handed out, and `rsp` is not one of them. -/
theorem x64_leaves_the_stack_pointer :
    let a := Architecture.x64SysV
    a.fault? = none ∧ a.general.fault? = none ∧ a.general.codeOf? "rsp" = some a.stackPointer ∧
      (List.range 256).countP (fun k => a.general.isAllocatable (UInt8.ofNat k)) = 14 ∧
      a.general.isAllocatable a.stackPointer = false := by
  intro a
  have hfault : a.fault? = none := by decide +kernel
  have hgeneral : a.general.fault? = none := by decide +kernel
  have hreliable := allocators_rely_on_the_check.1 a.general hgeneral
  have hpointer := allocators_rely_on_the_check.2 a hfault
  refine ⟨hfault, hgeneral, ?_, hreliable.count, hpointer.2.1⟩
  exact (hreliable.codeOf? "rsp" a.stackPointer).mpr ⟨by decide, rfl⟩

namespace Architecture

/-! ## Labels -/

variable {a : Architecture}

def labels (a : Architecture) : List String := a.general.names ++ a.float.names

/-- A label tells the class and the code of its register. -/
def LabelsDetermine (a : Architecture) : Prop :=
  ∀ kind kind' c c' n, (a.registers kind).name c = .ok n → (a.registers kind').name c' = .ok n →
    kind = kind' ∧ c = c'

theorem Consistent.labelsDetermine_iff (h : a.Consistent) :
    a.LabelsDetermine ↔ ∀ n ∈ a.general.names, n ∉ a.float.names := by
  constructor
  · intro hlabels n hgeneral hfloat
    obtain ⟨c, hc⟩ := h.general.mem_names_iff.mp hgeneral
    obtain ⟨d, hd⟩ := h.float.mem_names_iff.mp hfloat
    cases (hlabels .general .float c d n hc hd).1
  · intro hdisjoint kind kind' c c' n hc hc'
    cases kind <;> cases kind'
    · exact ⟨rfl, h.general.name_injective hc hc'⟩
    · exact absurd (h.float.mem_names_iff.mpr ⟨c', hc'⟩)
        (hdisjoint n (h.general.mem_names_iff.mpr ⟨c, hc⟩))
    · exact absurd (h.float.mem_names_iff.mpr ⟨c, hc⟩)
        (hdisjoint n (h.general.mem_names_iff.mpr ⟨c', hc'⟩))
    · exact ⟨rfl, h.float.name_injective hc hc'⟩

theorem Consistent.nodup_labels_iff (h : a.Consistent) :
    a.labels.Nodup ↔ ∀ n ∈ a.general.names, n ∉ a.float.names := by
  simp only [labels, List.nodup_append, h.general.names_nodup, h.float.names_nodup, true_and]
  exact ⟨fun hne n hg hf => hne n hg n hf rfl, fun hnot n hg m hf heq => hnot n hg (heq ▸ hf)⟩

/-- The check looks for repeated names within a class only. So it leaves no empty name, and the class
and a name tell the code; but a label of the whole architecture is unique, and tells class and code,
exactly if no name is in both classes. -/
theorem labels_unique_iff (a : Architecture) (ha : a.fault? = none) :
    (∀ n ∈ a.labels, n ≠ "") ∧
      (∀ kind c d n, (a.registers kind).name c = .ok n → (a.registers kind).name d = .ok n → c = d) ∧
      (a.labels.Nodup ↔ ∀ n ∈ a.general.names, n ∉ a.float.names) ∧
      (a.LabelsDetermine ↔ ∀ n ∈ a.general.names, n ∉ a.float.names) := by
  have h := fault?_eq_none_iff.mp ha
  refine ⟨fun n hn => ?_, fun kind c d n hc hd => ?_, h.nodup_labels_iff, h.labelsDetermine_iff⟩
  · rcases List.mem_append.mp hn with hn | hn
    · exact h.general.names_ne n hn
    · exact h.float.names_ne n hn
  · exact (h.registers kind).name_injective hc hd

/-- Names that tell the classes apart on 32-bit x86. -/
theorem labels_unique_on_x86 : x86.fault? = none ∧ x86.labels.Nodup ∧ x86.LabelsDetermine := by
  have hfault : x86.fault? = none := by decide +kernel
  have hdisjoint : ∀ n ∈ x86.general.names, n ∉ x86.float.names := by decide +kernel
  obtain ⟨-, -, hnodup, hdetermine⟩ := labels_unique_iff x86 hfault
  exact ⟨hfault, hnodup.mpr hdisjoint, hdetermine.mpr hdisjoint⟩

def x86Sharing : Architecture :=
  let names := ["eax", "xmm1", "xmm2", "xmm3", "xmm4", "xmm5", "xmm6", "xmm7"]
  { x86 with float := { x86.float with names } }

/-- No fault is found where both classes use a label. -/
theorem shared_label_is_no_fault :
    x86Sharing.fault? = none ∧ ¬x86Sharing.labels.Nodup ∧ ¬x86Sharing.LabelsDetermine := by
  have hfault : x86Sharing.fault? = none := by decide +kernel
  have hshared : ¬∀ n ∈ x86Sharing.general.names, n ∉ x86Sharing.float.names := by decide +kernel
  have h := fault?_eq_none_iff.mp hfault
  exact ⟨hfault, mt h.nodup_labels_iff.mp hshared, mt h.labelsDetermine_iff.mp hshared⟩

/-! ## The catalogue -/

theorem fault?_of_mem_catalogue (h : a ∈ catalogue) : a.fault? = none := by
  have hall : ∀ a ∈ catalogue, a.fault? = none := by decide +kernel
  exact hall a h

end Architecture

namespace Command

theorem mem_catalogue_of_target (h : target name? = .ok a) : a ∈ Architecture.catalogue := by
  cases name? with
  | none =>
    obtain rfl : Architecture.x64SysV = a := Except.ok.inj h
    exact List.mem_cons_self
  | some name =>
    cases hnamed : Architecture.named? name with
    | none => simp [target, hnamed] at h
    | some b =>
      obtain rfl : b = a := by simpa [target, hnamed] using h
      exact List.mem_of_find?_eq_some hnamed

/-- Whatever is asked for, no description turns out to be inconsistent. -/
theorem showRegisters_eq (name? : Option String) :
    showRegisters name? = (target name?).map architectureReport := by
  cases htarget : target name? with
  | error e => simp [showRegisters, htarget, Except.map, bind, Except.bind]
  | ok a =>
    have hfault := Architecture.fault?_of_mem_catalogue (mem_catalogue_of_target htarget)
    simp [showRegisters, htarget, hfault, Except.map, bind, Except.bind, pure, Except.pure]

end Command

end ScopeMachine
