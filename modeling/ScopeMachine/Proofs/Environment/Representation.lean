import ScopeMachine.Proofs.Environment.Lookup
import ScopeMachine.Proofs.Environment.Scopes

/-!
# Frames represent scopes

`Frame.Represents f s`: the slots of the frame `f` have distinct names, the index numbers the slots
of each local name, and what they hold is the finite map `s`. Then the search of the frame through
its index and among the ranks of namespaces finds what the search of the map along the keys of the
reference finds (`Frame.Represents.find?`).
-/

namespace ScopeMachine

/-! ## Keys -/

namespace Multiname

theorem accepts_iff {m : Multiname} : m.accepts q = true ↔ q ∈ m.keys := by
  obtain ⟨qualifier, name⟩ := q
  obtain ⟨own, namespaces⟩ := m
  cases qualifier with
  | none => cases namespaces <;> simp [accepts, keys, isQualified]
  | some ns =>
    cases namespaces with
    | nil => simp [accepts, keys, isQualified]
    | cons n rest =>
      simp only [accepts, keys, isQualified]
      grind

theorem name_of_mem_keys (h : q ∈ keys m) : q.name = m.name := by
  unfold keys at h
  split at h
  · obtain ⟨ns, -, rfl⟩ := List.mem_map.mp h
    rfl
  · rw [List.mem_singleton.mp h]

theorem rank_eq_idxOf (h : q ∈ keys m) : m.rank q = m.keys.idxOf q := by
  unfold keys at h ⊢
  split at h
  next hqualified =>
    obtain ⟨ns, -, rfl⟩ := List.mem_map.mp h
    simp only [hqualified, if_true, rank]
    induction m.namespaces with
    | nil => rfl
    | cons n rest ih =>
      by_cases hn : n = ns
      · simp [hn]
      · have hkey : ((⟨some n, m.name⟩ : QualifiedName) == ⟨some ns, m.name⟩) = false := by
          simpa using hn
        simp [List.idxOf_cons, beq_false_of_ne hn, hkey, ih]
  next hqualified =>
    rw [List.mem_singleton.mp h]
    simp [hqualified, rank]

theorem rank_lt_of_append (hkeys : keys m = front ++ q :: back) (hq : q ∉ front) (hx : x ∈ front) :
    m.rank x < m.rank q := by
  rw [rank_eq_idxOf (by simp [hkeys, hx]), rank_eq_idxOf (by simp [hkeys]), hkeys,
    List.idxOf_append, List.idxOf_append, if_pos hx, if_neg hq]
  simpa using List.idxOf_lt_length_of_mem hx

end Multiname

namespace Scope

theorem find?_eq_none_iff {s : Scope} : s.find? m = none ↔ ∀ q ∈ m.keys, s[q]? = none := by
  simp [find?]

theorem find?_eq_some {s : Scope} (hq : q ∈ m.keys) (he : s[q]? = some e)
    (hleast : ∀ x ∈ m.keys, s[x]? ≠ none → m.rank q ≤ m.rank x) : s.find? m = some (q, e) := by
  obtain ⟨front, back, hkeys, hfront⟩ := List.eq_append_cons_of_mem hq
  refine List.findSome?_eq_some_iff.mpr ⟨front, q, back, hkeys, by simp [he], fun x hx => ?_⟩
  have hlt := Multiname.rank_lt_of_append hkeys hfront hx
  cases hx' : s[x]? with
  | none => rfl
  | some _ =>
    have := hleast x (by simp [hkeys, hx]) (by simp [hx'])
    omega

end Scope

/-! ## Frames -/

def Slot.entry (a : Slot) : Entry := ⟨a.value, a.flags, a.initialized⟩

@[simp] theorem Slot.name_ofDeclaration (d : Declaration) : (ofDeclaration d).name = d.name := by
  unfold ofDeclaration
  split <;> rfl

@[simp] theorem Slot.entry_ofDeclaration (d : Declaration) :
    (ofDeclaration d).entry = .ofDeclaration d := by
  unfold ofDeclaration Entry.ofDeclaration
  split <;> rfl

namespace Frame

/-- The slots of the frame are the entries of the scope, one for each name. -/
structure Represents (f : Frame) (s : Scope) : Prop where
  distinct : ∀ (i j : Nat) (a b : Slot),
    f.slots[i]? = some a → f.slots[j]? = some b → a.name = b.name → i = j
  mem_slotsNamed : ∀ i n,
    i ∈ f.slotsNamed n ↔ ∃ a : Slot, f.slots[i]? = some a ∧ a.name.name = n
  getElem? : ∀ q e,
    s[q]? = some e ↔ ∃ (i : Nat) (a : Slot), f.slots[i]? = some a ∧ a.name = q ∧ a.entry = e

variable {f : Frame} {s : Scope} {a : Slot} {i : Nat}

theorem Represents.of_slot (h : f.Represents s) (ha : f.slots[i]? = some a) :
    s[a.name]? = some a.entry :=
  (h.getElem? ..).mpr ⟨i, a, ha, rfl, rfl⟩

theorem mem_candidates (h : f.Represents s) :
    (i, a) ∈ f.candidates m ↔ f.slots[i]? = some a ∧ a.name ∈ m.keys := by
  unfold candidates
  simp only [List.mem_filterMap, Array.mem_toList_iff, h.mem_slotsNamed, Option.map_eq_some_iff,
    Option.filter_eq_some_iff, Multiname.accepts_iff, Prod.mk.injEq]
  constructor
  · rintro ⟨_, -, b, ⟨hb, hkey⟩, rfl, rfl⟩
    exact ⟨hb, hkey⟩
  · rintro ⟨ha, hkey⟩
    exact ⟨i, ⟨a, ha, Multiname.name_of_mem_keys hkey⟩, a, ⟨ha, hkey⟩, rfl, rfl⟩

/-- The frame and the scope find the same: nothing, or an entry and its slot. -/
theorem Represents.find? (h : f.Represents s) (m : Multiname) :
    (f.find? m = none ∧ s.find? m = none) ∨
      ∃ i a, f.find? m = some (i, a) ∧ f.slots[i]? = some a ∧
        s.find? m = some (a.name, a.entry) := by
  have hcandidate : ∀ q ∈ m.keys, s[q]? ≠ none →
      ∃ c ∈ f.candidates m, q = c.2.name := by
    intro q hq hsome
    obtain ⟨e, he⟩ := Option.ne_none_iff_exists'.mp hsome
    obtain ⟨i, a, ha, rfl, -⟩ := (h.getElem? ..).mp he
    exact ⟨(i, a), (mem_candidates h).mpr ⟨ha, hq⟩, rfl⟩
  cases hf : f.find? m with
  | none =>
    refine .inl ⟨rfl, Scope.find?_eq_none_iff.mpr fun q hq => ?_⟩
    refine Classical.byContradiction fun hsome => ?_
    obtain ⟨c, hc, -⟩ := hcandidate q hq hsome
    obtain ⟨d, hd⟩ := exists_find?_of_mem hc
    cases hf.symm.trans hd
  | some hit =>
    obtain ⟨i, a⟩ := hit
    obtain ⟨ha, hkey⟩ := (mem_candidates h).mp (mem_candidates_of_find? hf)
    refine .inr ⟨i, a, rfl, ha, Scope.find?_eq_some hkey (h.of_slot ha) fun x hx hsome => ?_⟩
    -- a key that is there has a candidate, and the slot found is the least of them
    obtain ⟨c, hc, rfl⟩ := hcandidate x hx hsome
    exact rank_le_of_find? hf hc

theorem Represents.find?_eq_none (h : f.Represents s) (hf : f.find? m = none) :
    s.find? m = none := by
  rcases h.find? m with ⟨-, hs⟩ | ⟨i, a, hsome, -⟩
  · exact hs
  · cases hf.symm.trans hsome

theorem Represents.get? (h : f.Represents s) (m : Multiname) : f.get? m = s.get? m := by
  rcases h.find? m with ⟨hf, hs⟩ | ⟨i, a, hf, -, hs⟩
  · simp [Frame.get?, Scope.get?, hf, hs]
  · simp [Frame.get?, Scope.get?, hf, hs, Slot.entry]

theorem Represents.findExact? (h : f.Represents s) (q : QualifiedName) :
    (f.findExact? q = none ∧ s[q]? = none) ∨
      ∃ (i : Nat) (a : Slot), f.findExact? q = some i ∧ f.slots[i]? = some a ∧ a.name = q := by
  cases hf : f.findExact? q with
  | none =>
    refine .inl ⟨rfl, ?_⟩
    cases he : s[q]? with
    | none => rfl
    | some e =>
      obtain ⟨i, a, ha, rfl, -⟩ := (h.getElem? ..).mp he
      have hnot := List.find?_eq_none.mp hf i
        (Array.mem_toList_iff.mpr ((h.mem_slotsNamed ..).mpr ⟨a, ha, rfl⟩))
      simp [ha] at hnot
  | some i =>
    have hi := List.find?_some hf
    simp only [Option.any_eq_true, beq_iff_eq] at hi
    obtain ⟨a, ha, hq⟩ := hi
    exact .inr ⟨i, a, rfl, ha, hq⟩

/-! ## Changes of frames -/

theorem represents_empty (template : Option UInt16) :
    ({ Frame.empty with template } : Frame).Represents ∅ where
  distinct := by simp [Frame.empty]
  mem_slotsNamed := by simp [Frame.empty, slotsNamed]
  getElem? := by simp [Frame.empty]

/-- In `f'` the slot `k` is `c`, whether it is new or stood under the name of `c` before, and the
other slots are those of `f`. -/
structure Updates (f f' : Frame) (k : Nat) (c : Slot) : Prop where
  name_iff : ∀ (j : Nat) (b : Slot), f.slots[j]? = some b → (b.name = c.name ↔ j = k)
  slots : ∀ j : Nat, f'.slots[j]? = if j = k then some c else f.slots[j]?
  slotsNamed : ∀ j n, j ∈ f'.slotsNamed n ↔ (j = k ∧ c.name.name = n) ∨ j ∈ f.slotsNamed n

/-- By their names: `c` is there, and of the others all those with another name. -/
theorem Updates.slot_iff {f' : Frame} {b c : Slot} {j : Nat} (h : f.Updates f' k c) :
    f'.slots[j]? = some b ↔ (j = k ∧ b = c) ∨ (f.slots[j]? = some b ∧ b.name ≠ c.name) := by
  rw [h.slots]
  by_cases hj : j = k
  · simp only [hj, if_true, true_and, Option.some.injEq]
    constructor
    · exact fun hb => .inl hb.symm
    · rintro (rfl | ⟨hb, hne⟩)
      · rfl
      · exact absurd ((h.name_iff k b hb).mpr rfl) hne
  · simp only [hj, if_false, false_and, false_or]
    exact ⟨fun hb => ⟨hb, fun heq => hj ((h.name_iff j b hb).mp heq)⟩, fun hb => hb.1⟩

theorem Represents.update (h : f.Represents s) {f' : Frame} {c : Slot} (hc : f.Updates f' k c) :
    f'.Represents (s.insert c.name c.entry) where
  distinct := by
    -- no other slot has the name of `c`, and the others are as distinct as before
    intro i j a b ha hb heq
    rcases hc.slot_iff.mp ha with ⟨rfl, rfl⟩ | ⟨ha, hne⟩ <;>
      rcases hc.slot_iff.mp hb with ⟨rfl, rfl⟩ | ⟨hb, hne'⟩
    · rfl
    · exact absurd heq.symm hne'
    · exact absurd heq hne
    · exact h.distinct i j a b ha hb heq
  mem_slotsNamed := by
    intro j n
    rw [hc.slotsNamed, h.mem_slotsNamed]
    constructor
    · rintro (⟨rfl, rfl⟩ | ⟨b, hb, rfl⟩)
      · exact ⟨c, hc.slot_iff.mpr (.inl ⟨rfl, rfl⟩), rfl⟩
      · by_cases heq : b.name = c.name
        · exact ⟨c, hc.slot_iff.mpr (.inl ⟨(hc.name_iff j b hb).mp heq, rfl⟩), by rw [heq]⟩
        · exact ⟨b, hc.slot_iff.mpr (.inr ⟨hb, heq⟩), rfl⟩
    · rintro ⟨b, hb, rfl⟩
      rcases hc.slot_iff.mp hb with ⟨rfl, rfl⟩ | ⟨hb, -⟩
      · exact .inl ⟨rfl, rfl⟩
      · exact .inr ⟨b, hb, rfl⟩
  getElem? := by
    intro q e
    rw [Std.ExtHashMap.getElem?_insert]
    constructor
    · intro he
      split at he
      next heq =>
        cases he
        exact ⟨k, c, hc.slot_iff.mpr (.inl ⟨rfl, rfl⟩), by simpa using heq, rfl⟩
      next hne =>
        obtain ⟨j, b, hb, rfl, rfl⟩ := (h.getElem? ..).mp he
        exact ⟨j, b, hc.slot_iff.mpr (.inr ⟨hb, fun heq => hne (by simp [heq])⟩), rfl, rfl⟩
    · rintro ⟨j, b, hb, rfl, rfl⟩
      rcases hc.slot_iff.mp hb with ⟨rfl, rfl⟩ | ⟨hb, hne⟩
      · simp
      · simp [Ne.symm hne, h.of_slot hb]

theorem slotsNamed_declare (f : Frame) (a : Slot) (n : Name) :
    (f.declare a).slotsNamed n =
      if a.name.name = n then (f.slotsNamed n).push f.slots.size else f.slotsNamed n := by
  simp only [slotsNamed, declare, Std.HashMap.getElem?_insert]
  by_cases hn : a.name.name = n <;> simp [hn]

theorem Represents.updates_declare (h : f.Represents s) (hnew : s[a.name]? = none) :
    f.Updates (f.declare a) f.slots.size a where
  name_iff := by
    intro j b hb
    have hlt := (Array.getElem?_eq_some_iff.mp hb).1
    have hold := h.of_slot hb
    constructor
    · intro heq
      rw [heq, hnew] at hold
      cases hold
    · omega
  slots := fun _ => Array.getElem?_push
  slotsNamed := by
    intro j n
    rw [slotsNamed_declare]
    by_cases hn : a.name.name = n <;> simp [hn, or_comm]

theorem Represents.declare (h : f.Represents s) (hnew : s[a.name]? = none) :
    (f.declare a).Represents (s.insert a.name a.entry) :=
  h.update (h.updates_declare hnew)

theorem Represents.updates_modify (h : f.Represents s) (ha : f.slots[i]? = some a)
    (change : Slot → Slot) (hname : (change a).name = a.name) :
    f.Updates { f with slots := f.slots.modify i change } i (change a) where
  name_iff := by
    intro j b hb
    rw [hname]
    constructor
    · exact h.distinct j i b a hb ha
    · rintro rfl
      cases ha.symm.trans hb
      rfl
  slots := by
    intro j
    rw [Array.getElem?_modify]
    by_cases hj : j = i
    · simp [hj, ha]
    · simp [hj, Ne.symm hj]
  slotsNamed := by
    -- the index is not touched: the number of the slot is there already
    intro j n
    refine ⟨.inr, ?_⟩
    rintro (⟨rfl, hn⟩ | hj)
    · exact (h.mem_slotsNamed ..).mpr ⟨a, ha, by rw [← hn, hname]⟩
    · exact hj

theorem Represents.modify (h : f.Represents s) (ha : f.slots[i]? = some a) (change : Slot → Slot)
    (hname : (change a).name = a.name) :
    ({ f with slots := f.slots.modify i change } : Frame).Represents
      (s.insert a.name (change a).entry) := by
  rw [← hname]
  exact h.update (h.updates_modify ha change hname)

theorem Represents.write (h : f.Represents s) (ha : f.slots[i]? = some a) (v : Value) :
    (f.write i v).Represents (s.insert a.name ⟨v, a.flags, true⟩) :=
  h.modify ha (·.write v) rfl

theorem Represents.define (h : f.Represents s) (q : QualifiedName) (v : Value) (flags : SlotFlags) :
    (f.define q v flags).Represents (s.insert q ⟨v, flags, true⟩) := by
  unfold Frame.define
  rcases h.findExact? q with ⟨hf, hs⟩ | ⟨i, a, hf, ha, rfl⟩
  · rw [hf]
    exact h.declare hs
  · rw [hf]
    exact h.modify ha (fun _ => ⟨a.name, v, flags, true⟩) rfl

theorem Represents.declareAll (h : f.Represents s) {ds : List Declaration}
    (hds : (ds.map (·.name)).Nodup) (hnew : ∀ d ∈ ds, s[d.name]? = none) :
    (ds.foldl (fun f d => f.declare (.ofDeclaration d)) f).Represents
      (ds.foldl (fun s d => s.insert d.name (.ofDeclaration d)) s) := by
  induction ds generalizing f s with
  | nil => exact h
  | cons d ds ih =>
    obtain ⟨hd, hds⟩ := List.nodup_cons.mp hds
    have hdeclared := h.declare (a := .ofDeclaration d) (by simpa using hnew d (by simp))
    simp only [Slot.name_ofDeclaration, Slot.entry_ofDeclaration] at hdeclared
    refine ih hdeclared hds fun x hx => ?_
    have hne : d.name ≠ x.name := fun heq => hd (List.mem_map.mpr ⟨x, hx, heq.symm⟩)
    simp [Std.ExtHashMap.getElem?_insert, hne, hnew x (by simp [hx])]

theorem represents_instantiate (id : UInt16) {t : Template} (ht : t.names.Nodup) :
    (instantiate id t).Represents (.ofTemplate t) :=
  (represents_empty (some id)).declareAll ht (by simp)

end Frame

end ScopeMachine
