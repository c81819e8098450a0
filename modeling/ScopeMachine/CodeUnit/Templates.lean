import ScopeMachine.Instruction
import ScopeMachine.LoadError

/-!
# Frame templates

A template is the shape of one scope: the names it declares, in slot order. The templates of a unit
stand in an arena. A template may name an earlier one as the scope around it; running code does not
follow these links.
-/

namespace ScopeMachine

structure SlotFlags where
  /-- It holds `undefined` as soon as its scope is entered. -/
  hoisted : Bool
  /-- It takes its first value only. -/
  immutable : Bool
  deriving DecidableEq, Repr, Inhabited

def SlotFlags.none : SlotFlags := ⟨false, false⟩

structure Declaration where
  name : QualifiedName
  flags : SlotFlags
  deriving DecidableEq, Repr, Inhabited

structure Template where
  parent : Option UInt16
  slots : List Declaration
  deriving DecidableEq, Repr, Inhabited

def Template.names (t : Template) : List QualifiedName :=
  t.slots.map (·.name)

/-- The first name of the list that is in `seen` or stands earlier in the list. -/
def firstRepeated? (seen : List QualifiedName) : List QualifiedName → Option QualifiedName
  | [] => none
  | q :: rest => if q ∈ seen then some q else firstRepeated? (q :: seen) rest

theorem firstRepeated?_eq_none_iff {seen names : List QualifiedName} :
    firstRepeated? seen names = none ↔ names.Nodup ∧ ∀ q ∈ names, q ∉ seen := by
  induction names generalizing seen with
  | nil => simp [firstRepeated?]
  | cons q rest ih =>
    by_cases h : q ∈ seen
    · simp [firstRepeated?, h]
    · simp only [firstRepeated?, h, if_false, ih, List.nodup_cons, List.mem_cons, not_or,
        forall_eq_or_imp, not_false_eq_true, true_and]
      constructor
      · rintro ⟨nodup, fresh⟩
        exact ⟨⟨fun m => (fresh q m).1 rfl, nodup⟩, fun r m => (fresh r m).2⟩
      · rintro ⟨⟨notMem, nodup⟩, fresh⟩
        exact ⟨nodup, fun r m => ⟨fun e => notMem (e ▸ m), fresh r m⟩⟩

structure Arena where
  templates : Array Template
  /-- Every template is within reach of an index. -/
  size_le : templates.size ≤ tableLimit
  /-- The scope around a template is an earlier template. -/
  parent_lt : ∀ (n : Nat) (t : Template) (p : UInt16),
    templates[n]? = some t → t.parent = some p → p.toNat < n
  /-- No template declares a name twice. -/
  names_nodup : ∀ (n : Nat) (t : Template), templates[n]? = some t → t.names.Nodup

namespace Arena

def empty : Arena where
  templates := #[]
  size_le := Nat.zero_le _
  parent_lt := by simp
  names_nodup := by simp

instance : Inhabited Arena := ⟨empty⟩

def size (a : Arena) : Nat := a.templates.size

/-- What speaks against adding the template: a full arena, else a parent that is not there yet,
else a name declared twice. -/
def objection? (a : Arena) (t : Template) : Option LoadError :=
  if tableLimit ≤ a.templates.size then some (.tableTooLarge (a.templates.size + 1))
  else match t.parent.filter (a.templates.size ≤ ·.toNat) with
    | some p => some (.parentNotDeclared a.templates.size p.toNat)
    | none => (firstRepeated? [] t.names).map (.duplicateSlot a.templates.size)

theorem objection?_eq_none_iff {a : Arena} {t : Template} :
    a.objection? t = none ↔
      a.templates.size < tableLimit ∧ (∀ p, t.parent = some p → p.toNat < a.templates.size) ∧
        t.names.Nodup := by
  unfold objection?
  split
  · next full => simp; omega
  · next room =>
    split
    · next p h =>
      have ⟨parent, late⟩ := Option.filter_eq_some_iff.1 h
      have late : a.templates.size ≤ p.toNat := by simpa using late
      simp only [reduceCtorEq, false_iff, not_and]
      intro _ early
      have := early p parent
      omega
    · next h =>
      have early : ∀ p, t.parent = some p → p.toNat < a.templates.size := by
        intro p parent
        simp only [Option.filter_eq_none_iff] at h
        simpa using h p parent
      simp only [Option.map_eq_none_iff, firstRepeated?_eq_none_iff]
      exact ⟨fun ⟨nodup, _⟩ => ⟨by omega, early, nodup⟩, fun ⟨_, _, nodup⟩ => ⟨nodup, by simp⟩⟩

def push (a : Arena) (t : Template) : Except LoadError UInt16 × Arena :=
  match h : a.objection? t with
  | some e => (.error e, a)
  | none =>
    have ⟨room, early, nodup⟩ := objection?_eq_none_iff.1 h
    (.ok (UInt16.ofNat a.templates.size),
      { templates := a.templates.push t
        size_le := by
          simp only [Array.size_push]
          omega
        parent_lt := by
          intro n u p hu hp
          rw [Array.getElem?_push] at hu
          split at hu
          · next last =>
            cases hu
            exact last ▸ early p hp
          · exact a.parent_lt n u p hu hp
        names_nodup := by
          intro n u hu
          rw [Array.getElem?_push] at hu
          split at hu
          · cases hu
            exact nodup
          · exact a.names_nodup n u hu })

def get (a : Arena) (id : UInt16) : Except LoadError Template :=
  match a.templates[id.toNat]? with
  | some t => .ok t
  | none => .error (.frameOutOfRange id.toNat a.size)

/-- Adds the number of templates around template `n` to `depth`. -/
def nestingFrom (a : Arena) (n depth : Nat) : Except LoadError Nat :=
  match _ : a.templates[n]? with
  | none => .error (.frameOutOfRange n a.size)
  | some t =>
    match hp : t.parent with
    | none => .ok depth
    | some p => a.nestingFrom p.toNat (depth + 1)
  termination_by n
  decreasing_by exact a.parent_lt n t p (by assumption) hp

def nestingDepth (a : Arena) (id : UInt16) : Except LoadError Nat :=
  a.nestingFrom id.toNat 0

def entries (a : Arena) : List (UInt16 × Template) :=
  a.templates.toList.zipIdx.map fun (t, n) => (UInt16.ofNat n, t)

end Arena

end ScopeMachine
