import ScopeMachine.LoadError
import ScopeMachine.Proofs.Name.Interning
import ScopeMachine.Proofs.Related

/-!
# Names of one text in two interners

Two interners may number a text differently. Names of one text are twins, and being twins is one to
one, so whatever only compares names with each other cannot tell a name from its twin: a reference
accepts and ranks the twin of a declared name as the reference's twin does. What is shown of a name
is its text, which is that of its twin.
-/

namespace ScopeMachine

open List (Forall₂)

/-- Names of the same text, the one in `i` and the other in `j`. -/
def Name.Twins (i j : Interner) (n m : Name) : Prop := ∃ s, i.Spells n s ∧ j.Spells m s

variable {i j : Interner}

theorem Name.biUnique_twins (i j : Interner) : Relator.BiUnique (Twins i j) := by
  constructor
  · rintro n n' m ⟨s, hn, hm⟩ ⟨t, hn', hm'⟩
    obtain rfl := j.biUnique_spells.2 hm hm'
    exact i.biUnique_spells.1 hn hn'
  · rintro n m m' ⟨s, hn, hm⟩ ⟨t, hn', hm'⟩
    obtain rfl := i.biUnique_spells.2 hn hn'
    exact j.biUnique_spells.1 hm hm'

theorem Name.Twins.eq_iff (h : Twins i j n m) (h' : Twins i j n' m') : n = n' ↔ m = m' :=
  Relator.rel_eq (biUnique_twins i j) h h'

theorem Name.Twins.text (h : Twins i j n m) : i.text n = j.text m := by
  obtain ⟨s, hn, hm⟩ := h
  rw [hn.text, hm.text]

/-! ## Declared names and references -/

structure QualifiedName.Twins (i j : Interner) (q r : QualifiedName) : Prop where
  qualifier : Option.Rel (Name.Twins i j) q.qualifier r.qualifier
  name : q.name.Twins i j r.name

structure Multiname.Twins (i j : Interner) (m n : Multiname) : Prop where
  name : m.name.Twins i j n.name
  namespaces : Forall₂ (Name.Twins i j) m.namespaces n.namespaces

theorem QualifiedName.Twins.toText (h : Twins i j q r) : q.toText i = r.toText j := by
  obtain ⟨own, n⟩ := q
  obtain ⟨own', m⟩ := r
  obtain ⟨hown, hname⟩ := h
  cases hown with
  | none => exact hname.text
  | some hns => simp only [QualifiedName.toText, hns.text, Name.Twins.text hname]

namespace Multiname.Twins

variable {m n : Multiname} {q r : QualifiedName}

theorem isEmpty_namespaces (h : m.Twins i j n) : m.namespaces.isEmpty = n.namespaces.isEmpty := by
  obtain ⟨name, namespaces⟩ := m
  obtain ⟨name', namespaces'⟩ := n
  obtain ⟨-, hns⟩ := h
  cases hns <;> rfl

theorem toText (h : m.Twins i j n) : m.toText i = n.toText j := by
  have hns : m.namespaces.map i.text = n.namespaces.map j.text := by
    rw [← List.forall₂_eq_eq_eq, List.forall₂_map_left_iff, List.forall₂_map_right_iff]
    exact h.namespaces.imp fun _ _ h => h.text
  simp only [Multiname.toText, h.isEmpty_namespaces, hns, h.name.text]

theorem accepts (h : m.Twins i j n) (hq : q.Twins i j r) : m.accepts q = n.accepts r := by
  obtain ⟨own, name⟩ := q
  obtain ⟨own', name'⟩ := r
  obtain ⟨hown, hname⟩ := hq
  have heq : (name == m.name) = (name' == n.name) := by
    simpa [Bool.beq_eq_decide_eq] using hname.eq_iff h.name
  cases hown with
  | none => simp only [Multiname.accepts, heq, h.isEmpty_namespaces]
  | some hns =>
    have hmem := List.rel_mem (Name.biUnique_twins i j) hns h.namespaces
    simp only [Multiname.accepts, heq, ← List.elem_eq_contains, List.elem_eq_mem, hmem]

theorem rank (h : m.Twins i j n) (hq : q.Twins i j r) : m.rank q = n.rank r := by
  obtain ⟨own, name⟩ := q
  obtain ⟨own', name'⟩ := r
  obtain ⟨hown, -⟩ := hq
  cases hown with
  | none => rfl
  | some hns => exact forall₂_idxOf (Name.biUnique_twins i j) h.namespaces hns

theorem declarationName (h : m.Twins i j n) :
    m.declarationName.Twins i j n.declarationName := by
  obtain ⟨name, namespaces⟩ := m
  obtain ⟨name', namespaces'⟩ := n
  obtain ⟨hname, hns⟩ := h
  refine ⟨?_, hname⟩
  cases hns with
  | nil => exact .none
  | cons hns _ => exact .some hns

end Multiname.Twins

end ScopeMachine
