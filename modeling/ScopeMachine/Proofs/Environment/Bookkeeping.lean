import ScopeMachine.Proofs.Environment.Places

/-!
# The bookkeeping of frames

A frame neither drops nor renames a slot: it starts with the slots of its template, slots are added
behind those that are there, and slots are written where they stand. So the index is right if each
new number is appended to those of its local name, and a slot is blank until it is written
(`Frame.Tidy`, which every call keeps). That no name is there twice is known from the map that the
frame represents; with it every search is settled, since of the slots that answer to a reference no
two are preferred alike (`Frame.Represents.settled`).
-/

namespace ScopeMachine

open List

namespace Slot

/-- A slot that has not been written holds the stand-in, and it is not hoisted. -/
def BlankUntilWritten (s : Slot) : Prop :=
  s.initialized = false → s.value = .uninitialized ∧ s.flags.hoisted = false

theorem blankUntilWritten_of_initialized {s : Slot} (h : s.initialized = true) :
    s.BlankUntilWritten := by
  intro hnot
  cases h.symm.trans hnot

theorem blankUntilWritten_ofDeclaration (d : Declaration) : (ofDeclaration d).BlankUntilWritten := by
  cases hhoisted : d.flags.hoisted with
  | true => exact blankUntilWritten_of_initialized (by simp [ofDeclaration, hhoisted])
  | false =>
    intro _
    simp [ofDeclaration, hhoisted]

end Slot

theorem Multiname.qualifier_of_not_isQualified {m : Multiname} (hm : m.isQualified = false)
    (h : m.accepts q = true) : q.qualifier = none := by
  have hkey := accepts_iff.mp h
  rw [keys, if_neg (by simp [hm])] at hkey
  rw [mem_singleton.mp hkey]

/-! ## What frames keep -/

namespace Frame

def names (f : Frame) : List QualifiedName := f.slots.toList.map (·.name)

def numbers (f : Frame) (n : Name) : List Nat :=
  (List.range f.size).filter fun i => f.slots[i]?.any (·.name.name == n)

/-- The frame has the slots of the declared names in front, and its index has for each local name
that there is the numbers of its slots. -/
structure Tidy (declared : List QualifiedName) (f : Frame) : Prop where
  declared : declared <+: f.names
  index : ∀ n : Name,
    f.index[n]? = if f.numbers n = [] then none else some (f.numbers n).toArray
  blank : ∀ s ∈ f.slots, s.BlankUntilWritten

variable {f : Frame} {s : Slot} {declared : List QualifiedName}

theorem names_declare (f : Frame) (s : Slot) : (f.declare s).names = f.names ++ [s.name] := by
  simp [names, declare]

theorem numbers_declare (f : Frame) (s : Slot) (n : Name) :
    (f.declare s).numbers n = f.numbers n ++ if s.name.name = n then [f.size] else [] := by
  have hfront : (List.range f.size).filter (fun i => (f.slots.push s)[i]?.any (·.name.name == n)) =
      f.numbers n := by
    refine filter_congr fun i hi => ?_
    have hlt : i < f.slots.size := mem_range.mp hi
    rw [Array.getElem?_push_lt hlt, Array.getElem?_eq_getElem hlt]
  have hsize : (f.declare s).size = f.size + 1 := by simp [size, declare]
  rw [numbers, hsize, range_succ, filter_append]
  refine congrArg₂ _ hfront ?_
  by_cases hn : s.name.name = n <;> simp [declare, size, hn]

theorem Tidy.slotsNamed (h : f.Tidy declared) (n : Name) :
    f.slotsNamed n = (f.numbers n).toArray := by
  rw [Frame.slotsNamed, h.index]
  by_cases hnone : f.numbers n = [] <;> simp [hnone]

theorem Tidy.declare (h : f.Tidy declared) (hs : s.BlankUntilWritten) :
    (f.declare s).Tidy declared where
  declared := by
    rw [names_declare]
    exact h.declared.trans (prefix_append f.names [s.name])
  index := by
    intro n
    have hindex : (f.declare s).index[n]? =
        if s.name.name = n then some ((f.slotsNamed n).push f.size) else f.index[n]? := by
      simp only [Frame.declare, Std.HashMap.getElem?_insert, size]
      by_cases hn : s.name.name = n <;> simp [hn]
    rw [hindex, numbers_declare, h.slotsNamed, h.index]
    by_cases hn : s.name.name = n <;> simp [hn]
  blank := by
    intro a ha
    rcases Array.mem_push.mp ha with ha | rfl
    · exact h.blank a ha
    · exact hs

theorem name_of_modify {change : Slot → Slot} (hname : ∀ a, f.slots[i]? = some a →
    (change a).name = a.name) (j : Nat) :
    (f.slots.modify i change)[j]?.map (·.name) = f.slots[j]?.map (·.name) := by
  rw [Array.getElem?_modify]
  split
  next hij =>
    subst hij
    cases ha : f.slots[i]? with
    | none => rfl
    | some a => simp [hname a ha]
  next => rfl

theorem Tidy.modify (h : f.Tidy declared) {change : Slot → Slot}
    (hname : ∀ a, f.slots[i]? = some a → (change a).name = a.name)
    (hblank : ∀ a, (change a).BlankUntilWritten) :
    ({ f with slots := f.slots.modify i change } : Frame).Tidy declared where
  declared := by
    have hnames : ({ f with slots := f.slots.modify i change } : Frame).names = f.names := by
      refine ext_getElem? fun j => ?_
      simpa [names, -Array.toList_modify] using name_of_modify hname j
    rw [hnames]
    exact h.declared
  index := by
    intro n
    -- no name changes, so the same numbers are listed for each
    have hnumbers : ({ f with slots := f.slots.modify i change } : Frame).numbers n =
        f.numbers n := by
      rw [numbers, size, Array.size_modify]
      refine filter_congr fun j _ => ?_
      have hany := congrArg (Option.any (·.name == n)) (name_of_modify hname j)
      simpa [Option.any_map, Function.comp_def] using hany
    rw [hnumbers]
    exact h.index n
  blank := by
    intro a ha
    obtain ⟨j, hj⟩ := Array.mem_iff_getElem?.mp ha
    simp only [Array.getElem?_modify] at hj
    split at hj
    · obtain ⟨b, -, rfl⟩ := Option.map_eq_some_iff.mp hj
      exact hblank b
    · exact h.blank a (Array.mem_iff_getElem?.mpr ⟨j, hj⟩)

theorem Tidy.write (h : f.Tidy declared) (i : Nat) (v : Value) : (f.write i v).Tidy declared :=
  h.modify (fun _ _ => rfl) fun _ => Slot.blankUntilWritten_of_initialized rfl

theorem Tidy.define (h : f.Tidy declared) (q : QualifiedName) (v : Value) (flags : SlotFlags) :
    (f.define q v flags).Tidy declared := by
  unfold Frame.define
  cases hfound : f.findExact? q with
  | none => exact h.declare (Slot.blankUntilWritten_of_initialized rfl)
  | some i =>
    -- the slot that is overwritten was found under that very name
    have hi := List.find?_some hfound
    refine h.modify (fun a ha => ?_) fun _ => Slot.blankUntilWritten_of_initialized rfl
    have hq : a.name = q := by simpa [ha] using hi
    exact hq.symm

theorem tidy_empty (template : Option UInt16) : ({ empty with template } : Frame).Tidy [] where
  declared := nil_prefix
  index := by simp [numbers, empty, size]
  blank := by simp [empty]

theorem Tidy.declareAll (h : f.Tidy declared) (ds : List Declaration) :
    (ds.foldl (fun f d => f.declare (.ofDeclaration d)) f).Tidy declared := by
  induction ds generalizing f with
  | nil => exact h
  | cons d ds ih => exact ih (h.declare (Slot.blankUntilWritten_ofDeclaration d))

theorem tidy_instantiate (id : UInt16) (t : Template) : (instantiate id t).Tidy t.names where
  declared := by
    have hnames : (instantiate id t).names = t.names := by
      simp [names, slots_instantiate, Template.names]
    exact hnames ▸ prefix_rfl
  __ := (tidy_empty (some id)).declareAll t.slots

/-! ## What searches find -/

/-- The slot of the number; a number that is out of range is the error. -/
def slotAt (f : Frame) (i : Nat) : Except Nat Slot :=
  match f.slots[i]? with
  | some s => .ok s
  | none => .error i

/-- The search as it goes: the slots of all numbers listed for the local name are looked up, and of
those that answer the one that is preferred is taken. -/
def search (f : Frame) (m : Multiname) : Except Nat (Option (Nat × Slot)) := do
  let named ← (f.slotsNamed m.name).toList.mapM fun i => return (i, ← f.slotAt i)
  return (named.filter fun (_, s) => m.accepts s.name).minOn? fun (_, s) => m.rank s.name

def Answers (f : Frame) (m : Multiname) (i : Nat) (s : Slot) : Prop :=
  f.slots[i]? = some s ∧ m.accepts s.name = true

/-- No search of the frame goes astray: the numbers it looks at are those of slots, a reference
without namespaces has one slot to find at most, any other one at most one slot in each namespace,
and what is found is preferred to all else that answers. -/
structure Settled (f : Frame) : Prop where
  search : ∀ m, f.search m = .ok (f.find? m)
  unqualified : ∀ m i j a b, m.isQualified = false → f.Answers m i a → f.Answers m j b → i = j
  qualified : ∀ m ns i j a b, f.Answers m i a → f.Answers m j b →
    a.name.qualifier = some ns → b.name.qualifier = some ns → i = j
  find?_iff : ∀ m i a, f.find? m = some (i, a) ↔
    f.Answers m i a ∧ ∀ j b, f.Answers m j b → j ≠ i → m.rank a.name < m.rank b.name

theorem mapM_slotAt {is : List Nat} (his : ∀ i ∈ is, ∃ s, f.slots[i]? = some s) :
    (is.mapM fun i => return (i, ← f.slotAt i) : Except Nat (List (Nat × Slot))) =
      .ok (is.filterMap fun i => f.slots[i]?.map (i, ·)) := by
  induction is with
  | nil => rfl
  | cons i is ih =>
    obtain ⟨s, hs⟩ := his i mem_cons_self
    have hrest := ih fun j hj => his j (mem_cons_of_mem i hj)
    rw [mapM_cons, hrest]
    simp [slotAt, hs]
    rfl

theorem search_eq (h : ∀ i ∈ f.slotsNamed m.name, ∃ s, f.slots[i]? = some s) :
    f.search m = .ok (f.find? m) := by
  have hlisted : ∀ i ∈ (f.slotsNamed m.name).toList, ∃ s, f.slots[i]? = some s := by
    simpa using h
  have hcandidates : ((f.slotsNamed m.name).toList.filterMap fun i =>
      f.slots[i]?.map (i, ·)).filter (fun (_, s) => m.accepts s.name) = f.candidates m := by
    rw [filter_filterMap, candidates]
    refine filterMap_congr fun i _ => ?_
    rw [Option.filter_map]
    rfl
  rw [search, mapM_slotAt hlisted, find?, ← hcandidates]
  rfl

theorem Represents.names_nodup {r : Scope} (h : f.Represents r) : f.names.Nodup := by
  refine nodup_iff_getElem?_ne_getElem?.mpr fun i j hij hj heq => ?_
  have hj' : j < f.slots.size := by simpa [names] using hj
  have hi' : i < f.slots.size := Nat.lt_trans hij hj'
  have hname : f.slots[i].name = f.slots[j].name := by simpa [names, hi', hj'] using heq
  have hsame := h.distinct i j _ _ (Array.getElem?_eq_getElem hi') (Array.getElem?_eq_getElem hj')
    hname
  omega

/-- Where no name is there twice, two slots that answer and are preferred alike are one. -/
theorem Represents.eq_of_rank_eq {r : Scope} (h : f.Represents r) (ha : f.Answers m i a)
    (hb : f.Answers m j b) (hrank : m.rank a.name = m.rank b.name) : i = j := by
  have hkey := Multiname.accepts_iff.mp ha.2
  have hkey' := Multiname.accepts_iff.mp hb.2
  rw [Multiname.rank_eq_idxOf hkey, Multiname.rank_eq_idxOf hkey'] at hrank
  have hname : a.name = b.name := (idxOf_inj hkey).mp hrank
  exact h.distinct i j a b ha.1 hb.1 hname

theorem Represents.eq_of_qualifier_eq {r : Scope} (h : f.Represents r) (ha : f.Answers m i a)
    (hb : f.Answers m j b) (hqualifier : a.name.qualifier = b.name.qualifier) : i = j := by
  refine h.eq_of_rank_eq ha hb ?_
  simp only [Multiname.rank, hqualifier]

theorem Represents.find?_iff {r : Scope} (h : f.Represents r) : f.find? m = some (i, a) ↔
    f.Answers m i a ∧ ∀ j b, f.Answers m j b → j ≠ i → m.rank a.name < m.rank b.name := by
  have hmem : ∀ {j b}, (j, b) ∈ f.candidates m ↔ f.Answers m j b := by
    intro j b
    rw [mem_candidates h, ← Multiname.accepts_iff, Answers]
  constructor
  · intro hfound
    have ha := hmem.mp (mem_candidates_of_find? hfound)
    refine ⟨ha, fun j b hb hne => ?_⟩
    have hle := rank_le_of_find? hfound (hmem.mpr hb)
    exact Nat.lt_of_le_of_ne hle fun hrank => hne (h.eq_of_rank_eq ha hb hrank).symm
  · rintro ⟨ha, hleast⟩
    obtain ⟨⟨j, b⟩, hfound⟩ := exists_find?_of_mem (hmem.mpr ha)
    have hb := hmem.mp (mem_candidates_of_find? hfound)
    have hle := rank_le_of_find? hfound (hmem.mpr ha)
    -- what is found is no other slot, for that would come behind this one
    by_cases hne : j = i
    · subst hne
      cases ha.1.symm.trans hb.1
      exact hfound
    · exact absurd (hleast j b hb hne) (Nat.not_lt.mpr hle)

theorem Represents.settled {r : Scope} (h : f.Represents r) : f.Settled where
  search m := by
    refine search_eq fun i hi => ?_
    obtain ⟨s, hs, -⟩ := (h.mem_slotsNamed i m.name).mp hi
    exact ⟨s, hs⟩
  unqualified m i j a b hm ha hb := by
    have hnone := Multiname.qualifier_of_not_isQualified hm ha.2
    have hnone' := Multiname.qualifier_of_not_isQualified hm hb.2
    exact h.eq_of_qualifier_eq ha hb (hnone.trans hnone'.symm)
  qualified m ns i j a b ha hb hns hns' := h.eq_of_qualifier_eq ha hb (hns.trans hns'.symm)
  find?_iff m i a := h.find?_iff

end Frame

/-! ## What calls keep -/

def Base.names : Base → List QualifiedName
  | empty => []
  | ofTemplate _ t => t.val.names

/-- What the frames of an environment started as, the innermost one first, after the call. -/
def Call.origins (bases : List Base) : Call → List Base
  | .push id t => .ofTemplate id t :: bases
  | .pop =>
    match bases with
    | _ :: below :: rest => below :: rest
    | _ => bases
  | _ => bases

theorem Base.tidy_frame (b : Base) : b.frame.Tidy b.names := by
  cases b with
  | empty => exact Frame.tidy_empty none
  | ofTemplate id t => exact Frame.tidy_instantiate id t.val

namespace Environment

def afterCalls (env : Environment) (calls : List Call) : Environment :=
  calls.foldl (fun env c => (env.answer c).2) env

/-- Frame by frame, the environment is tidy, with the names in front that the frame started with. -/
def Tidy (env : Environment) (bases : List Base) : Prop :=
  Forall₂ (fun f b => f.Tidy (Base.names b)) env.frames bases

variable {env : Environment} {bases : List Base}

theorem Tidy.modifyFrame (h : env.Tidy bases) (n : Nat) {change : Frame → Frame}
    (hchange : ∀ f ds, f.Tidy ds → (change f).Tidy ds) : (env.modifyFrame n change).Tidy bases := by
  have hmodify := forall₂_modify (n := n) (g := id) h fun f b _ hf => hchange f b.names hf
  rw [modify_id] at hmodify
  rwa [Tidy, frames_modifyFrame]

theorem Tidy.answer (h : env.Tidy bases) (c : Call) : (env.answer c).2.Tidy (c.origins bases) := by
  cases c with
  | push id t => exact .cons (Frame.tidy_instantiate id t.val) h
  | pop =>
    -- there is a frame below on both sides or on neither
    obtain ⟨innermost, outer, policy⟩ := env
    cases h with
    | cons hf hrest =>
      cases hrest with
      | nil => exact .cons hf .nil
      | cons hg hrest => exact .cons hg hrest
  | write m v declares =>
    -- the write overwrites a slot, adds one, or fails
    simp only [Environment.answer, Environment.write]
    split
    next => exact h
    next after hafter =>
      split at hafter
      next b _ =>
        split at hafter
        · cases hafter
        · cases hafter
          exact h.modifyFrame b.distance fun _ _ hf => hf.write b.index v
      next =>
        split at hafter
        · cases hafter
          exact h.modifyFrame 0 fun _ _ hf =>
            hf.declare (Slot.blankUntilWritten_of_initialized rfl)
        · cases hafter
  | define q v flags => exact h.modifyFrame 0 fun _ _ hf => hf.define q v flags
  | defineGlobal q v flags => exact h.modifyFrame _ fun _ _ hf => hf.define q v flags
  | policy policy => exact h
  | read => exact h
  | distance => exact h
  | depth => exact h
  | innermost => exact h
  | base => exact h

theorem Tidy.afterCalls (h : env.Tidy bases) (calls : List Call) :
    (env.afterCalls calls).Tidy (calls.foldl Call.origins bases) := by
  induction calls generalizing env bases with
  | nil => exact h
  | cons c calls ih => exact ih (h.answer c)

theorem Represents.afterCalls {r : Scopes} (h : env.Represents r) (calls : List Call) :
    ∃ r', (env.afterCalls calls).Represents r' := by
  induction calls generalizing env r with
  | nil => exact ⟨r, h⟩
  | cons c calls ih => exact ih (h.answer c).2

end Environment

structure Frame.InOrder (declared : List QualifiedName) (f : Frame) : Prop extends
    f.Tidy declared where
  names_nodup : f.names.Nodup

/-- Whatever the base frame and whatever the calls, every frame of the environment is in order, from
the names that it started with, and its searches are settled. -/
theorem Environment.frames_stay_in_order (b : Base) (calls : List Call) :
    Forall₂ (fun f base => f.InOrder (Base.names base) ∧ f.Settled)
      ((ofBase b.frame).afterCalls calls).frames (calls.foldl Call.origins [b]) := by
  have htidy := Tidy.afterCalls (.cons b.tidy_frame .nil : (ofBase b.frame).Tidy [b]) calls
  obtain ⟨r, hr⟩ := Represents.afterCalls
    (⟨.cons b.frame_represents .nil, rfl⟩ : (ofBase b.frame).Represents (.ofBase b.scope)) calls
  have hrepresents : ∀ f ∈ ((ofBase b.frame).afterCalls calls).frames, ∃ s, f.Represents s := by
    intro f hf
    obtain ⟨n, hn⟩ := mem_iff_getElem?.mp hf
    obtain ⟨s, -, hs⟩ := rel_some_left.mp (hn ▸ forall₂_getElem? hr.frames n)
    exact ⟨s, hs⟩
  refine ((forall₂_and_left _ _).mpr ⟨hrepresents, htidy⟩).imp ?_
  rintro f base ⟨⟨s, hs⟩, hf⟩
  exact ⟨{ hf with names_nodup := hs.names_nodup }, hs.settled⟩

end ScopeMachine
