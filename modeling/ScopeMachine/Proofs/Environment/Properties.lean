import ScopeMachine.Proofs.Environment.Agreement

/-!
# Properties are found like bindings

A host that sets properties of an object and a host that defines bindings of the same names in an
empty environment lay down the same map. The table tries the keys of a reference one after the other
and the frame ranks the slots of a local name, but both find what the map holds under the first of
the keys that is there: `properties_found_like_bindings`.
-/

namespace ScopeMachine

/-- A property that is set, and the flags with which a binding is defined in its stead. -/
structure Assignment where
  object : UInt32
  name : QualifiedName
  value : Value
  flags : SlotFlags

def PropertyTable.ofAssignments (as : List Assignment) : PropertyTable :=
  as.foldl (fun t a => t.set a.object a.name a.value) empty

/-- The environment that is empty at first and in which the properties of the object are defined as
bindings, one after the other. -/
def Environment.ofAssignments (object : UInt32) (as : List Assignment) : Environment :=
  (as.filter (·.object == object)).foldl (fun env a => env.define a.name a.value a.flags)
    (ofBase .empty)

theorem Environment.find?_empty (m : Multiname) : (ofBase .empty).find? m = none := by
  simp [find?, frames, ofBase, findIn, Frame.find?, Frame.candidates, Frame.empty]

/-! ## What the map holds -/

theorem PropertyTable.get?_set (t : PropertyTable) (object o : UInt32) (name q : QualifiedName)
    (v : Value) :
    (t.set object name v).get? o q = if object = o ∧ name = q then some v else t.get? o q := by
  simp [set, get?, Std.HashMap.getElem?_insert]

theorem Multiname.findSome?_keys (m : Multiname) (f : QualifiedName → Option α) :
    m.keys.findSome? f =
      if m.isQualified then m.namespaces.findSome? fun ns => f ⟨some ns, m.name⟩
      else f ⟨none, m.name⟩ := by
  unfold keys
  split
  · simp [List.findSome?_map, Function.comp_def]
  · simp

theorem Scope.get?_eq (s : Scope) (m : Multiname) :
    s.get? m = m.keys.findSome? fun q => s[q]?.map (·.value) := by
  simp [get?, find?, List.map_findSome?, Function.comp_def]

theorem Scope.getElem?_of_find? {s : Scope} (h : s.find? m = some (q, e)) : s[q]? = some e := by
  obtain ⟨x, -, hx⟩ := List.exists_of_findSome?_eq_some h
  obtain ⟨e', he, heq⟩ := Option.map_eq_some_iff.mp hx
  cases heq
  exact he

namespace PropertyTable

/-- One map stands behind both: it holds the properties of the object, and it is the one scope of the
environment, with all its bindings initialized. -/
structure Mirrors (t : PropertyTable) (object : UInt32) (env : Environment) (s : Scope) : Prop where
  get? : ∀ q, t.get? object q = s[q]?.map (·.value)
  env : env.Represents (.ofBase s)
  initialized : ∀ (q : QualifiedName) (e : Entry), s[q]? = some e → e.initialized = true

variable {t : PropertyTable} {object : UInt32} {env : Environment} {s : Scope}

theorem mirrors_empty (object : UInt32) : empty.Mirrors object (.ofBase .empty) ∅ where
  get? _ := by simp [empty, get?]
  env := ⟨.cons (Frame.represents_empty none) .nil, rfl⟩
  initialized _ _ := by simp

theorem Mirrors.set (h : t.Mirrors object env s) (q : QualifiedName) (v : Value)
    (flags : SlotFlags) :
    (t.set object q v).Mirrors object (env.define q v flags) (s.insert q ⟨v, flags, true⟩) where
  get? x := by
    by_cases hx : q = x <;> simp [get?_set, Std.ExtHashMap.getElem?_insert, hx, h.get?]
  env := h.env.define q v flags
  initialized x e he := by
    rw [Std.ExtHashMap.getElem?_insert] at he
    split at he
    · cases he
      rfl
    · exact h.initialized x e he

theorem Mirrors.set_other (h : t.Mirrors object env s) (ho : o ≠ object) (q : QualifiedName)
    (v : Value) : (t.set o q v).Mirrors object env s where
  get? x := by simp [get?_set, ho, h.get?]
  env := h.env
  initialized := h.initialized

theorem mirrors_ofAssignments (as : List Assignment) (object : UInt32) :
    ∃ s, (ofAssignments as).Mirrors object (.ofAssignments object as) s := by
  -- the assignments that are left act on whatever table and environment mirror each other so far
  have hrest : ∀ {t env s}, Mirrors t object env s →
      ∃ s', (as.foldl (fun t a => t.set a.object a.name a.value) t).Mirrors object
        ((as.filter (·.object == object)).foldl
          (fun env a => env.define a.name a.value a.flags) env) s' := by
    induction as with
    | nil => exact fun h => ⟨_, h⟩
    | cons a as ih =>
      intro t env s h
      by_cases ho : a.object = object
      · subst ho
        simpa using ih (h.set a.name a.value a.flags)
      · simpa [ho] using ih (h.set_other ho a.name a.value)
  exact hrest (mirrors_empty object)

/-! ## What is read -/

theorem Mirrors.read (h : t.Mirrors object env s) (m : Multiname) :
    t.read (.object object) m =
      match s.get? m with
      | some v => .ok v
      | none => .error .notFound := by
  rw [Scope.get?_eq, ← funext h.get?, Multiname.findSome?_keys]
  rfl

theorem Mirrors.outer (h : t.Mirrors object env s) : env.outer = [] := by
  have hdepth : env.outer.length + 1 = 1 := h.env.depth
  exact List.length_eq_zero_iff.mp (Nat.succ.inj hdepth)

theorem Mirrors.innermost_get? (h : t.Mirrors object env s) (m : Multiname) :
    env.innermost.get? m = s.get? m :=
  h.env.innermost.get? m

/-- What is there is initialized, so no policy is asked; what is not there is left to the receiver. -/
theorem Mirrors.lexical_read (h : t.Mirrors object env s) (policy : Policy) (m : Multiname)
    (phase : Phase) (ambient : Option Ambient) :
    (env.withPolicy policy).read m phase ambient =
      match s.get? m with
      | some v => ⟨.ok v, none⟩
      | none => (Environment.ofBase .empty).read m phase ambient := by
  have hpolicy : (env.withPolicy policy).Represents ((Scopes.ofBase s).withPolicy policy) :=
    ⟨h.env.frames, rfl⟩
  have hnothing := (mirrors_empty object).env
  have hempty : (∅ : Scope).find? m = none := by simp [Scope.find?]
  rw [hpolicy.read, hnothing.read]
  cases hs : s.find? m with
  | none =>
    simp only [Scopes.read, Scopes.withPolicy, Scopes.ofBase, Scopes.locate, Scope.get?, hs, hempty]
    cases ambient <;> rfl
  | some hit =>
    obtain ⟨q, e⟩ := hit
    have he := h.initialized q e (Scope.getElem?_of_find? hs)
    simp [Scopes.read, Scopes.withPolicy, Scopes.ofBase, Scopes.locate, Scope.get?, hs, he]

end PropertyTable

/-- Whatever properties are set, of whatever objects, and whatever flags those of one object have as
bindings: a reference finds the same value as a property of the object and as a binding of the one
frame, or finds neither. So a receiver that stands in for scopes gives what reading the binding gives,
in any phase and under any policy, and whatever other receiver there is to fall back on. -/
theorem properties_found_like_bindings (as : List Assignment) (object : UInt32) (m : Multiname) :
    let t := PropertyTable.ofAssignments as
    let env := Environment.ofAssignments object as
    env.outer = [] ∧
      (∀ v, t.read (.object object) m = .ok v ↔ env.innermost.get? m = some v) ∧
      (t.read (.object object) m = .error .notFound ↔ env.innermost.find? m = none) ∧
      ∀ name stopsAt policy phase,
        let ambient : Ambient := ⟨.object object, .ofTable name t stopsAt⟩
        (∀ v, ambient.answer m = .ok v ↔
          ((env.withPolicy policy).read m phase none).result = .ok v) ∧
        ∀ other, (env.withPolicy policy).read m phase other =
          match ambient.answer m with
          | .ok v => ⟨.ok v, none⟩
          | .error _ => (Environment.ofBase .empty).read m phase other := by
  intro t env
  obtain ⟨s, h⟩ := PropertyTable.mirrors_ofAssignments as object
  have hfind : env.innermost.find? m = none ↔ s.get? m = none := by
    rw [← h.innermost_get? m, Frame.get?, Option.map_eq_none_iff]
  refine ⟨h.outer, fun v => ?_, ?_, fun name stopsAt policy phase => ?_⟩
  · rw [h.read, h.innermost_get?]
    cases s.get? m <;> simp
  · rw [h.read, hfind]
    cases s.get? m <;> simp
  · intro ambient
    have hanswer : ambient.answer m = t.read (.object object) m := rfl
    rw [hanswer, h.read]
    refine ⟨fun v => ?_, fun other => ?_⟩
    · rw [h.lexical_read]
      cases s.get? m with
      | none => simp [Environment.read, Environment.find?_empty]
      | some v => simp
    · rw [h.lexical_read]
      cases s.get? m <;> rfl

end ScopeMachine
