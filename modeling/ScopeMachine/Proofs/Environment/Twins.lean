import ScopeMachine.Proofs.Environment.Agreement
import ScopeMachine.Proofs.Environment.Lookup
import ScopeMachine.Proofs.Name.Reports
import ScopeMachine.Proofs.Name.Twins

/-!
# Environments that differ in the numbers of their names only

Twin frames hold the same in slots of twin names, and their indices give the same slot numbers for
twin names. Twin environments consist of twin frames; reads and writes through twin references come
to the same, fail alike, and leave twins.
-/

namespace ScopeMachine

open List

structure Declaration.Twins (i j : Interner) (d e : Declaration) : Prop where
  name : d.name.Twins i j e.name
  flags : d.flags = e.flags

structure Template.Twins (i j : Interner) (t u : Template) : Prop where
  slots : Forall₂ (Declaration.Twins i j) t.slots u.slots

structure Slot.Twins (i j : Interner) (a b : Slot) : Prop where
  name : a.name.Twins i j b.name
  entry : a.entry = b.entry

structure Frame.Twins (i j : Interner) (f g : Frame) : Prop where
  slots : Forall₂ (Slot.Twins i j) f.slots.toList g.slots.toList
  slotsNamed : ∀ n m, n.Twins i j m → f.slotsNamed n = g.slotsNamed m

structure Binding.Twins (i j : Interner) (b c : Binding) : Prop where
  distance : b.distance = c.distance
  index : b.index = c.index
  slot : b.slot.Twins i j c.slot

structure Environment.Twins (i j : Interner) (env env' : Environment) : Prop where
  frames : Forall₂ (Frame.Twins i j) env.frames env'.frames
  policy : env.policy = env'.policy

variable {i j : Interner}

/-! ## Slots -/

namespace Slot

variable {a b : Slot}

theorem Twins.write (h : a.Twins i j b) (v : Value) : (a.write v).Twins i j (b.write v) :=
  ⟨h.name, by simpa [Slot.write, Slot.entry] using congrArg Entry.flags h.entry⟩

theorem twins_ofDeclaration (h : Declaration.Twins i j d e) :
    (ofDeclaration d).Twins i j (ofDeclaration e) := by
  refine ⟨by simpa using h.name, ?_⟩
  simp only [entry_ofDeclaration, Entry.ofDeclaration, h.flags]

theorem Twins.isFixed (h : a.Twins i j b) : a.isFixed = b.isFixed := by
  have hentry := h.entry
  simp_all [Slot.isFixed, Slot.entry]

end Slot

theorem Multiname.Twins.agree {m n : Multiname} (h : m.Twins i j n) :
    m.Agree (Slot.Twins i j) n where
  accepts _ _ hab := h.accepts hab.name
  rank _ _ hab := h.rank hab.name

/-! ## Frames -/

namespace Frame

variable {f g : Frame} {m n : Multiname}

theorem Twins.size (h : f.Twins i j g) : f.size = g.size := h.slots.length_eq

theorem Twins.related (h : f.Twins i j g) (hm : m.Twins i j n) :
    f.Related (Slot.Twins i j) m n g :=
  ⟨h.slots, h.slotsNamed _ _ hm.name⟩

theorem Twins.declare (h : f.Twins i j g) (hab : Slot.Twins i j a b) :
    (f.declare a).Twins i j (g.declare b) where
  slots := by
    simpa [Frame.declare] using rel_append h.slots (.cons hab .nil)
  slotsNamed p q hpq := by
    have hsize : f.slots.size = g.slots.size := h.slots.length_eq
    simp only [slotsNamed_declare, hab.name.name.eq_iff hpq, h.slotsNamed p q hpq, hsize]

theorem Twins.modify (h : f.Twins i j g) (k : Nat) {change change' : Slot → Slot}
    (hchange : ∀ a b, Slot.Twins i j a b → (change a).Twins i j (change' b)) :
    ({ f with slots := f.slots.modify k change } : Frame).Twins i j
      { g with slots := g.slots.modify k change' } where
  slots := by
    simpa using forall₂_modify h.slots fun a b _ hab => hchange a b hab
  slotsNamed := h.slotsNamed

theorem Twins.write (h : f.Twins i j g) (k : Nat) (v : Value) :
    (f.write k v).Twins i j (g.write k v) :=
  h.modify k fun _ _ hab => hab.write v

theorem Twins.declareAll (h : f.Twins i j g) (hds : Forall₂ (Declaration.Twins i j) ds es) :
    (ds.foldl (fun f d => f.declare (.ofDeclaration d)) f).Twins i j
      (es.foldl (fun f d => f.declare (.ofDeclaration d)) g) := by
  induction hds generalizing f g with
  | nil => exact h
  | cons hd _ ih => exact ih (h.declare (Slot.twins_ofDeclaration hd))

theorem twins_instantiate (id : UInt16) (h : Template.Twins i j t u) :
    (instantiate id t).Twins i j (instantiate id u) :=
  Twins.declareAll ⟨.nil, by simp [Frame.empty, slotsNamed]⟩ h.slots

end Frame

/-! ## Environments -/

namespace Environment

variable {env env' : Environment} {m n : Multiname}

theorem Twins.find? (h : env.Twins i j env') (hm : m.Twins i j n) :
    Option.Rel (Binding.Twins i j) (env.find? m) (env'.find? n) := by
  have hframes : Forall₂ (Frame.Related (Slot.Twins i j) m n) env.frames env'.frames :=
    h.frames.imp fun _ _ hfg => hfg.related hm
  have hfound := findIn_related hframes hm.agree 0
  unfold Environment.find?
  generalize findIn m 0 env.frames = o at hfound ⊢
  generalize findIn n 0 env'.frames = o' at hfound ⊢
  cases hfound with
  | none => exact .none
  | some hbc => exact .some ⟨hbc.distance, hbc.index, hbc.slot⟩

theorem Twins.depth (h : env.Twins i j env') : env.depth = env'.depth :=
  h.frames.length_eq

theorem Twins.sizes (h : env.Twins i j env') :
    env.frames.map Frame.size = env'.frames.map Frame.size := by
  rw [← forall₂_eq_eq_eq, forall₂_map_left_iff, forall₂_map_right_iff]
  exact h.frames.imp fun _ _ hfg => hfg.size

/-- Reads where no receiver stands in give the same value, or fail alike. -/
theorem Twins.read (h : env.Twins i j env') (hm : m.Twins i j n) (phase : Phase) :
    ExceptRel (EvalError.Alike i j) Eq (env.read m phase none).result
      (env'.read n phase none).result := by
  have hfound := h.find? hm
  unfold Environment.read
  generalize env.find? m = o at hfound ⊢
  generalize env'.find? n = o' at hfound ⊢
  cases hfound with
  | none => exact .error (.unresolvedBinding hm.toText)
  | @some b c hbc =>
    have hvalue : b.slot.value = c.slot.value := congrArg Entry.value hbc.slot.entry
    have hinitialized : b.slot.initialized = c.slot.initialized :=
      congrArg Entry.initialized hbc.slot.entry
    simp only [hvalue, hinitialized, uninitialized, h.policy]
    split
    · exact .ok rfl
    · split
      · exact .error (.usedBeforeInitialization hm.toText)
      · exact .ok rfl
      · exact .ok rfl

theorem lookup_read (env : Environment) (m : Multiname) (phase : Phase) :
    (env.read m phase none).lookup = none := by
  unfold Environment.read
  split <;> rfl

theorem Twins.modifyFrame (h : env.Twins i j env') (k : Nat) {change change' : Frame → Frame}
    (hchange : ∀ f g, Frame.Twins i j f g → (change f).Twins i j (change' g)) :
    (env.modifyFrame k change).Twins i j (env'.modifyFrame k change') where
  frames := by
    rw [frames_modifyFrame, frames_modifyFrame]
    exact forall₂_modify h.frames fun f g _ hfg => hchange f g hfg
  policy := by
    rw [policy_modifyFrame, policy_modifyFrame]
    exact h.policy

theorem Twins.write (h : env.Twins i j env') (hm : m.Twins i j n) (v : Value) (declares : Bool) :
    ExceptRel (EvalError.Alike i j) (Environment.Twins i j) (env.write m v declares)
      (env'.write n v declares) := by
  have hfound := h.find? hm
  unfold Environment.write
  generalize env.find? m = o at hfound ⊢
  generalize env'.find? n = o' at hfound ⊢
  cases hfound with
  | none =>
    simp only
    split
    · refine .ok (h.modifyFrame 0 fun f g hfg => hfg.declare ?_)
      exact ⟨hm.declarationName, rfl⟩
    · exact .error (.unresolvedBinding hm.toText)
  | @some b c hbc =>
    simp only [hbc.slot.isFixed, hbc.distance, hbc.index]
    split
    · exact .error (.immutableBinding hbc.slot.name.toText)
    · exact .ok (h.modifyFrame c.distance fun f g hfg => hfg.write c.index v)

theorem Twins.push (h : env.Twins i j env') (id : UInt16) (ht : Template.Twins i j t u) :
    (env.push id t).Twins i j (env'.push id u) :=
  ⟨.cons (Frame.twins_instantiate id ht) h.frames, h.policy⟩

theorem Twins.pop (h : env.Twins i j env') :
    ExceptRel (EvalError.Alike i j) (fun p p' => Environment.Twins i j p.2 p'.2) env.pop
      env'.pop := by
  obtain ⟨f, outer, policy⟩ := env
  obtain ⟨g, outer', policy'⟩ := env'
  obtain ⟨hframes, hpolicy⟩ := h
  cases hframes with
  | cons _ houter =>
    cases houter with
    | nil => exact .error .frameUnderflow
    | cons hfg houter => exact .ok ⟨.cons hfg houter, hpolicy⟩

theorem Twins.withPolicy (h : env.Twins i j env') (policy : Policy) :
    (env.withPolicy policy).Twins i j (env'.withPolicy policy) :=
  ⟨h.frames, rfl⟩

theorem twins_ofBase (h : Frame.Twins i j f g) : (ofBase f).Twins i j (ofBase g) :=
  ⟨.cons h .nil, rfl⟩

end Environment

end ScopeMachine
