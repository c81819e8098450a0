import Mathlib.Data.List.Nodup
import ScopeMachine.Proofs.Code.Loading
import ScopeMachine.Proofs.Name.Loaders
import ScopeMachine.Proofs.Name.Reports
import ScopeMachine.Proofs.Related

/-!
# What the tables of a unit spell

The written entries of an image and the entries that loading makes of them, related through the
interner: `QualifiedName.Spells`, `Multiname.Spells`, `Template.Spells`, `Constant.Spells`, and
`Draft.Spells` for all the tables of a unit. Each function of the loader interns the texts of its
entry, and makes what spells the entry.
-/

namespace ScopeMachine

open Interner List

/-! ## Names -/

def Image.Slot.key (s : Image.Slot) : Option String × String := (s.qualifier, s.name)

def Image.Frame.keys (f : Image.Frame) : List (Option String × String) := f.slots.map Slot.key

namespace QualifiedName

structure Spells (i : Interner) (q : QualifiedName) (key : Option String × String) : Prop where
  qualifier : Option.Rel i.Spells q.qualifier key.1
  name : i.Spells q.name key.2

variable {i j : Interner} {q : QualifiedName}

theorem Spells.mono (h : q.Spells i key) (hij : i ≤ j) : q.Spells j key := by
  obtain ⟨ns, n⟩ := q
  obtain ⟨own, s⟩ := key
  obtain ⟨hown, hname⟩ := h
  refine ⟨?_, hname.mono hij⟩
  cases hown with
  | none => exact .none
  | some h => exact .some (h.mono hij)

theorem Spells.texts_eq (h : q.Spells i key) : q.texts i = key := by
  obtain ⟨ns, n⟩ := q
  obtain ⟨own, s⟩ := key
  obtain ⟨hown, hname⟩ := h
  cases hown with
  | none => simp [texts, hname.text]
  | some h => simp [texts, hname.text, h.text]

theorem biUnique_spells (i : Interner) : Relator.BiUnique (Spells i) := by
  constructor
  · rintro ⟨p, n⟩ ⟨q, m⟩ ⟨own, s⟩ ⟨hp, hn⟩ ⟨hq, hm⟩
    obtain rfl := i.biUnique_spells.1 hn hm
    cases hp with
    | none => cases hq; rfl
    | some hp =>
      cases hq with
      | some hq => rw [i.biUnique_spells.1 hp hq]
  · intro q key key' h h'
    exact h.texts_eq.symm.trans h'.texts_eq

end QualifiedName

/-! ## Entries of the tables -/

/-- The reference has the written local name, and the written namespaces once each. -/
structure Multiname.Spells (i : Interner) (m : Multiname) (r : Image.Reference) : Prop where
  name : i.Spells m.name r.name
  namespaces : Forall₂ i.Spells m.namespaces r.namespaces.eraseDups

structure Declaration.Spells (i : Interner) (d : Declaration) (s : Image.Slot) : Prop where
  name : d.name.Spells i s.key
  flags : d.flags = ⟨s.hoisted, s.immutable⟩

structure Template.Spells (i : Interner) (t : Template) (f : Image.Frame) : Prop where
  parent : t.parent = f.parent
  slots : Forall₂ (Declaration.Spells i) t.slots f.slots

inductive Constant.Spells (i : Interner) : Constant → Image.Constant → Prop
  | undefined : Spells i .undefined .undefined
  | null : Spells i .null .null
  | bool (b) : Spells i (.bool b) (.bool b)
  | int (n) : Spells i (.int n) (.int n)
  | float (x) : Spells i (.float x) (.float x)
  | str : i.Spells n s → Spells i (.str n) (.str s)

theorem Template.Spells.names (h : Template.Spells i t f) :
    Forall₂ (QualifiedName.Spells i) t.names f.keys :=
  forall₂_map_left_iff.mpr (forall₂_map_right_iff.mpr (h.slots.imp fun _ _ h => h.name))

/-! ## The texts of an image -/

namespace Image

def Reference.texts (r : Reference) : List String := r.name :: r.namespaces

def Slot.texts (s : Slot) : List String := s.qualifier.toList ++ [s.name]

def Frame.texts (f : Frame) : List String := f.slots.flatMap Slot.texts

def Constant.texts : Constant → List String
  | str s => [s]
  | _ => []

/-- All texts of the image in the order in which they are interned. -/
def texts (image : Image) : List String :=
  image.multinames.flatMap Reference.texts ++ image.frames.flatMap Frame.texts ++
    image.constants.flatMap Constant.texts

end Image

theorem interns_internReference :
    Interns Image.Reference.texts Multiname.Spells MultinameTable.internReference where
  outcome i r := by
    have htexts : r.texts = [r.name] ++ r.namespaces.flatMap fun s => [s] := by
      simp [Image.Reference.texts]
    rw [htexts]
    refine (interns_intern.outcome i r.name).bind fun name hname =>
      (interns_intern.mapM.outcome _ r.namespaces).map fun namespaces hnamespaces => ?_
    exact ⟨hname.mono (le_internAll ..), forall₂_eraseDups (biUnique_spells _) hnamespaces⟩
  mono _ _ hij _ _ h := ⟨h.name.mono hij, h.namespaces.imp fun _ _ h => h.mono hij⟩

theorem interns_internSlot :
    Interns Image.Slot.texts Declaration.Spells CodeUnit.internSlot where
  outcome i s := by
    obtain ⟨name, own, hoisted, immutable⟩ := s
    cases own with
    | none =>
      refine (interns_intern.outcome i name).map fun n hname => ?_
      exact ⟨⟨.none, hname⟩, rfl⟩
    | some ns =>
      have hqualifier : Loader.Outcome i [ns] (fun j q => Option.Rel j.Spells q (some ns))
          (fun _ _ => False) ((some <$> Loader.intern ns).run i) :=
        (interns_intern.outcome i ns).map fun _ h => .some h
      refine hqualifier.bind fun q hq => (interns_intern.outcome _ name).map fun n hname => ?_
      cases hq with
      | some hns => exact ⟨⟨.some (hns.mono (le_internAll ..)), hname⟩, rfl⟩
  mono _ _ hij _ _ h := ⟨h.name.mono hij, h.flags⟩

theorem Template.Spells.mono (h : Template.Spells i t f) (hij : i ≤ j) : Template.Spells j t f :=
  ⟨h.parent, h.slots.imp fun _ _ h => interns_internSlot.mono hij h⟩

theorem interns_internConstant :
    Interns Image.Constant.texts Constant.Spells CodeUnit.internConstant where
  outcome i c := by
    cases c with
    | str s => exact (interns_intern.outcome i s).map fun _ h => .str h
    | _ => exact .pure i (by constructor)
  mono _ _ hij _ _ h := by
    cases h with
    | str h => exact .str (h.mono hij)
    | _ => constructor

/-! ## Units -/

structure Draft.Spells (d : Draft) (image : Image) : Prop where
  multinames : Forall₂ (Multiname.Spells d.interner) d.multinames.entries.toList image.multinames
  templates : Forall₂ (Template.Spells d.interner) d.templates.templates.toList image.frames
  constants : Forall₂ (Constant.Spells d.interner) d.constants.toList image.constants
  base : d.base = image.base
  code : d.code = image.code.toArray

end ScopeMachine
