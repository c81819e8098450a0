import ScopeMachine.Proofs.Environment.Isolation

/-!
# Writes are read back

A write to a slot that is there overwrites it where it is, so all references resolve as before
(`Persists`). A write that declares adds a slot, which the references that accept its name find if
they found nothing before. Either way the reference reads as what was written, and the others as
before, but for those that resolve to the slot or accept the name: `writes_are_read_back`.
-/

namespace ScopeMachine

open List

theorem Multiname.accepts_declarationName (m : Multiname) :
    m.accepts m.declarationName = true :=
  accepts_iff.mpr m.declarationName_mem_keys

/-! ## A slot more -/

namespace Frame

variable {f : Frame} {m : Multiname} {s : Slot}

def hit? (f : Frame) (m : Multiname) (n : Nat) : Option (Nat × Slot) :=
  (f.slots[n]?.filter fun s => m.accepts s.name).map (n, ·)

theorem candidates_eq (f : Frame) (m : Multiname) :
    f.candidates m = (f.slotsNamed m.name).toList.filterMap (f.hit? m) := rfl

theorem hit?_declare (f : Frame) (s : Slot) (m : Multiname) (n : Nat) :
    (f.declare s).hit? m n =
      if n = f.slots.size then if m.accepts s.name then some (n, s) else none else f.hit? m n := by
  simp only [hit?, declare, Array.getElem?_push]
  by_cases hn : n = f.slots.size
  · by_cases haccepts : m.accepts s.name = true <;> simp [hn, haccepts]
  · simp [hn]

theorem hit?_size (f : Frame) (m : Multiname) : f.hit? m f.slots.size = none := by simp [hit?]

theorem find?_declare_of_not_accepts (h : m.accepts s.name = false) :
    (f.declare s).find? m = f.find? m := by
  have hhit : (f.declare s).hit? m = f.hit? m := by
    funext n
    rw [hit?_declare, h]
    by_cases hn : n = f.slots.size
    · simp [hn, hit?_size]
    · simp [hn]
  have hcandidates : (f.declare s).candidates m = f.candidates m := by
    rw [candidates_eq, candidates_eq, hhit, slotsNamed_declare]
    -- the number of the new slot is listed at most, and hits nothing
    split
    · simp [hit?_size]
    · rfl
  rw [find?, find?, hcandidates]

theorem candidates_eq_nil (h : f.find? m = none) : f.candidates m = [] := by
  cases hcandidates : f.candidates m with
  | nil => rfl
  | cons c rest =>
    obtain ⟨d, hd⟩ := exists_find?_of_mem (hcandidates ▸ mem_cons_self : c ∈ f.candidates m)
    cases h.symm.trans hd

theorem eq_of_mem_candidates_declare (hnone : f.find? m = none) (h : m.accepts s.name = true)
    (hc : c ∈ (f.declare s).candidates m) : c = (f.slots.size, s) := by
  have hname : s.name.name = m.name := Multiname.name_of_mem_keys (Multiname.accepts_iff.mp h)
  rw [candidates_eq, mem_filterMap] at hc
  obtain ⟨n, hn, hhit⟩ := hc
  rw [hit?_declare, if_pos h] at hhit
  split at hhit
  next heq => rw [← Option.some.inj hhit, heq]
  next hne =>
    have hold : n ∈ (f.slotsNamed m.name).toList := by
      simpa [slotsNamed_declare, hname, hne] using hn
    have hmem : c ∈ f.candidates m := mem_filterMap.mpr ⟨n, hold, hhit⟩
    rw [candidates_eq_nil hnone] at hmem
    cases hmem

theorem find?_declare (hnone : f.find? m = none) (h : m.accepts s.name = true) :
    (f.declare s).find? m = some (f.slots.size, s) := by
  have hname : s.name.name = m.name := Multiname.name_of_mem_keys (Multiname.accepts_iff.mp h)
  have hmem : (f.slots.size, s) ∈ (f.declare s).candidates m := by
    rw [candidates_eq, mem_filterMap]
    refine ⟨f.slots.size, ?_, ?_⟩
    · simp [slotsNamed_declare, hname]
    · simp [hit?_declare, h]
  -- something is found among the slots that answer, and the new slot is all of them
  obtain ⟨c, hc⟩ := exists_find?_of_mem hmem
  rw [eq_of_mem_candidates_declare hnone h (mem_candidates_of_find? hc)] at hc
  exact hc

/-! ## A slot written -/

theorem write_eq (f : Frame) (n : Nat) (v : Value) :
    f.write n v =
      (f.modifySlot n ({ · with value := v })).modifySlot n ({ · with initialized := true }) := by
  have hslots : f.slots.modify n (·.write v) = (f.slots.modify n ({ · with value := v })).modify n
      ({ · with initialized := true }) := by
    rw [← Array.toList_inj]
    simp only [Array.toList_modify, modify_modify_eq]
    rfl
  simp only [write, modifySlot, hslots]

theorem persists_refl (f : Frame) : f.Persists f where
  template := rfl
  index := rfl
  slots := forall₂_same.mpr fun s _ => s.persists_overwrite []

theorem persists_write (f : Frame) (n : Nat) (v : Value) : f.Persists (f.write n v) where
  template := rfl
  index := rfl
  slots := by
    refine forall₂_of_getElem? (by simp [write]) fun k a b ha hb => ?_
    rw [Array.getElem?_toList] at ha hb
    simp only [write, Array.getElem?_modify, ha] at hb
    split at hb
    · cases hb
      exact a.persists_overwrite [v]
    · cases hb
      exact a.persists_overwrite []

end Frame

namespace Environment

variable {env env' : Environment} {m other : Multiname}

theorem persists_modifyFrame_write (env : Environment) (n k : Nat) (v : Value) :
    Forall₂ Frame.Persists env.frames (env.modifyFrame n (·.write k v)).frames := by
  rw [frames_modifyFrame]
  refine forall₂_of_getElem? (by simp) fun i f g hf hg => ?_
  rw [getElem?_modify, hf] at hg
  split at hg
  · cases hg
    exact f.persists_write k v
  · cases hg
    exact f.persists_refl

theorem find?_declare_of_not_accepts (h : other.accepts s.name = false) :
    (env.modifyFrame 0 (·.declare s)).find? other = env.find? other := by
  simp only [find?, frames, modifyFrame, findIn, Frame.find?_declare_of_not_accepts h]

theorem find?_declare (hnone : env.find? m = none) (h : m.accepts s.name = true) :
    (env.modifyFrame 0 (·.declare s)).find? m = some ⟨0, env.innermost.slots.size, s⟩ := by
  simp only [find?, frames, modifyFrame, findIn, Frame.find?_declare (find?_innermost hnone) h]

/-! ## Reads after a write -/

theorem read_eq_of_find?_eq (h : env'.find? m = env.find? m) (policy : Policy) (phase : Phase)
    (ambient : Option Ambient) :
    (env'.withPolicy policy).read m phase ambient =
      (env.withPolicy policy).read m phase ambient := by
  have hwith (env : Environment) : (env.withPolicy policy).find? m = env.find? m := rfl
  simp only [read, hwith, h]
  rfl

theorem read_of_initialized (h : env.find? m = some b) (hinit : b.slot.initialized = true)
    (policy : Policy) (phase : Phase) (ambient : Option Ambient) :
    (env.withPolicy policy).read m phase ambient = ⟨.ok b.slot.value, none⟩ := by
  have hwith : (env.withPolicy policy).find? m = some b := h
  simp [read, hwith, hinit]

/-- A write under `m` is to nothing that `other` means: `other` resolves to another slot, and does
not accept the name that the write declares if it does. -/
structure Apart (env : Environment) (m other : Multiname) : Prop where
  place? : ∀ p, env.place? m = some p → env.place? other ≠ some p
  accepts : env.place? m = none → other.accepts m.declarationName = false

/-- What reads and distances are after the value has been written under the reference. -/
structure ReadsBack (env : Environment) (m : Multiname) (v : Value) (env' : Environment) :
    Prop where
  read : ∀ policy phase ambient,
    (env'.withPolicy policy).read m phase ambient = ⟨.ok v, none⟩
  distance? : env'.distance? m = some ((env.distance? m).getD 0)
  read_other : ∀ other, env.Apart m other → ∀ policy phase ambient,
    (env'.withPolicy policy).read other phase ambient =
      (env.withPolicy policy).read other phase ambient
  distance?_other : ∀ other, env.Apart m other → env'.distance? other = env.distance? other

theorem readsBack_of_find? (hfind : env'.find? m = some b) (hinit : b.slot.initialized = true)
    (hdistance : b.distance = (env.distance? m).getD 0)
    (hothers : ∀ other, env.Apart m other → env'.find? other = env.find? other) :
    env.ReadsBack m b.slot.value env' where
  read := read_of_initialized hfind hinit
  distance? := by rw [← hdistance, Environment.distance?, hfind, Option.map_some]
  read_other other hother := read_eq_of_find?_eq (hothers other hother)
  distance?_other other hother := congrArg (Option.map Binding.distance) (hothers other hother)

theorem readsBack_declare (hnone : env.find? m = none) (v : Value) :
    env.ReadsBack m v (env.modifyFrame 0 (·.declare ⟨m.declarationName, v, .none, true⟩)) := by
  have hfind := find?_declare (s := ⟨m.declarationName, v, .none, true⟩) hnone
    m.accepts_declarationName
  refine readsBack_of_find? hfind rfl ?_ ?_
  · simp [distance?, hnone]
  · intro other hother
    exact find?_declare_of_not_accepts (hother.accepts (place?_eq_none_iff.mpr hnone))

theorem readsBack_write (hfind : env.find? m = some b) (v : Value) :
    env.ReadsBack m v (env.modifyFrame b.distance (·.write b.index v)) := by
  have hpersists := persists_modifyFrame_write env b.distance b.index v
  obtain ⟨p, hp, hheight, hindex, hslot⟩ := place?_of_find? hfind
  -- the reference resolves to the same place, where there is the written slot now
  obtain ⟨c, hc, hcheight, -, hcslot⟩ := place?_eq_some ((place?_of_persists hpersists m).trans hp)
  rw [slot?_modifyFrame_write, if_pos ⟨hheight, hindex⟩, hslot] at hcslot
  have hwritten : b.slot.write v = c.slot := Option.some.inj hcslot
  have hvalue : c.slot.value = v := by rw [← hwritten]; rfl
  rw [← hvalue]
  refine readsBack_of_find? (hvalue ▸ hc) (by rw [← hwritten]; rfl) ?_ ?_
  · rw [depth_modifyFrame] at hcheight
    simp only [distance?, hfind, Option.map_some, Option.getD_some]
    omega
  · intro other hother
    rw [hvalue]
    refine find?_eq_of_persists hpersists fun q hq => ?_
    rw [slot?_modifyFrame_write, if_neg]
    -- at the same height and with the same number it would be the same place
    rintro ⟨hqheight, hqindex⟩
    have hsame : q = p := by
      obtain ⟨height, index⟩ := q
      obtain ⟨height', index'⟩ := p
      simp only [Place.mk.injEq] at *
      omega
    exact hother.place? p hp (hsame ▸ hq)

/-! ## Writes in place -/

theorem run_get_bind (next : Environment → ExceptT EvalError (StateM Environment) Unit)
    (env : Environment) : (get >>= next).run.run env = (next env).run.run env := rfl

theorem modifyFrame_write (env : Environment) (n k : Nat) (v : Value) :
    env.modifyFrame n (·.write k v) =
      (env.modifyFrame n (·.modifySlot k ({ · with value := v }))).modifyFrame n
        (·.modifySlot k ({ · with initialized := true })) := by
  cases n with
  | zero => simp [modifyFrame, Frame.write_eq]
  | succ n => simp [modifyFrame, modify_modify_eq, Function.comp_def, Frame.write_eq]

/-- Done in place, the write ends in the environment that `act` gives, in success and in failure. -/
theorem run_writeInPlace (env : Environment) (m : Multiname) (v : Value) (declares : Bool) :
    (writeInPlace m v declares).run.run env = env.act (.write m v declares) := by
  rw [writeInPlace, run_get_bind]
  cases hfind : env.find? m with
  | none =>
    simp only [act, write, hfind]
    cases declares <;> rfl
  | some b =>
    simp only [act, write, hfind]
    by_cases hfixed : b.slot.isFixed
    · simp only [hfixed, if_true]
      rfl
    · simp only [hfixed, modifyFrame_write]
      rfl

/-- A write that succeeds is read back under its reference whatever the policy, the phase and the
ambient receiver are, at the distance of the slot that was there or else in the innermost frame. It
changes neither value nor distance of what it is apart from. One that fails leaves the environment
as it was. -/
theorem writes_are_read_back (env : Environment) (m : Multiname) (v : Value) (declares : Bool) :
    (∀ env', env.write m v declares = .ok env' →
      (writeInPlace m v declares).run.run env = (.ok (), env') ∧ env.ReadsBack m v env') ∧
    (∀ e, env.write m v declares = .error e →
      (writeInPlace m v declares).run.run env = (.error e, env)) := by
  constructor
  · intro env' hwrite
    constructor
    · rw [run_writeInPlace, act, hwrite]
    · unfold write at hwrite
      split at hwrite
      next b hfind =>
        split at hwrite
        · cases hwrite
        · cases hwrite
          exact readsBack_write hfind v
      next hnone =>
        split at hwrite
        · cases hwrite
          exact readsBack_declare hnone v
        · cases hwrite
  · intro e hwrite
    rw [run_writeInPlace, act, hwrite]

/-- A write that declares a name above a slot of the same local name, and a write to that slot,
which takes none. -/
theorem writes_are_read_back_above_a_namesake :
    let fixed : Declaration := ⟨⟨some ⟨5⟩, ⟨1⟩⟩, ⟨true, true⟩⟩
    let env := (ofBase (.instantiate 0 ⟨none, [fixed]⟩)).push 1 ⟨some 0, []⟩
    let new : Multiname := ⟨⟨1⟩, [⟨6⟩, ⟨7⟩]⟩
    let old : Multiname := ⟨⟨1⟩, [⟨5⟩, ⟨7⟩]⟩
    env.Apart new old ∧ (∃ env', env.ReadsBack new (.int 3) env') ∧
      (writeInPlace old (.int 3) true).run.run env =
        (.error (.immutableBinding fixed.name), env) := by
  intro fixed env new old
  have hapart : env.Apart new old := by
    constructor
    · intro p hp
      have hnone : env.place? new = none := by cbv
      cases hnone.symm.trans hp
    · intro _
      decide
  have hnew : env.find? new = none := by cbv
  have hold : env.write old (.int 3) true = .error (.immutableBinding fixed.name) := by cbv
  have hwrite : env.write new (.int 3) true =
      .ok (env.modifyFrame 0 (·.declare ⟨new.declarationName, .int 3, .none, true⟩)) := by
    rw [write, hnew]
    rfl
  exact ⟨hapart, ⟨_, ((writes_are_read_back env new (.int 3) true).1 _ hwrite).2⟩,
    (writes_are_read_back env old (.int 3) true).2 _ hold⟩

end Environment

end ScopeMachine
