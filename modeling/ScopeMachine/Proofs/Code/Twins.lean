import ScopeMachine.CodeUnit.Listing
import ScopeMachine.Proofs.Code.Acceptance
import ScopeMachine.Proofs.Environment.Twins

/-!
# Two units of one image

Loaded with two interners, one image gives tables that are twins entry by entry
(`CodeUnit.twins_of_load`). Looking up an index comes to twins, and the listings are the same.
-/

namespace ScopeMachine

open Interner List

inductive Constant.Twins (i j : Interner) : Constant → Constant → Prop
  | undefined : Twins i j .undefined .undefined
  | null : Twins i j .null .null
  | bool (b) : Twins i j (.bool b) (.bool b)
  | int (n) : Twins i j (.int n) (.int n)
  | float (x) : Twins i j (.float x) (.float x)
  | str : n.Twins i j m → Twins i j (.str n) (.str m)

/-- Parts of two units that differ in the numbers of their names only. -/
structure Draft.Twins (i j : Interner) (d e : Draft) : Prop where
  left : d.interner = i
  right : e.interner = j
  multinames : Forall₂ (Multiname.Twins i j) d.multinames.entries.toList
    e.multinames.entries.toList
  templates : Forall₂ (Template.Twins i j) d.templates.templates.toList
    e.templates.templates.toList
  constants : Forall₂ (Constant.Twins i j) d.constants.toList e.constants.toList
  base : d.base = e.base
  code : d.code = e.code

variable {i j : Interner}

/-! ## From the image -/

theorem QualifiedName.Spells.twins (h : Spells i q key) (h' : Spells j r key) :
    q.Twins i j r := by
  obtain ⟨own, n⟩ := q
  obtain ⟨own', m⟩ := r
  obtain ⟨ns, s⟩ := key
  obtain ⟨hown, hname⟩ := h
  obtain ⟨hown', hname'⟩ := h'
  refine ⟨?_, s, hname, hname'⟩
  cases hown with
  | none =>
    cases hown'
    exact .none
  | some hown =>
    cases hown' with
    | some hown' => exact .some ⟨_, hown, hown'⟩

theorem Draft.Spells.twins {d e : Draft} (h : d.Spells image) (h' : e.Spells image) :
    d.Twins d.interner e.interner e where
  left := rfl
  right := rfl
  multinames := by
    -- the entry of the image is what both spell
    refine (forall₂_comp h.multinames h'.multinames).imp ?_
    rintro m n ⟨r, hm, hn⟩
    exact ⟨⟨r.name, hm.name, hn.name⟩, forall₂_comp hm.namespaces hn.namespaces⟩
  templates := by
    refine (forall₂_comp h.templates h'.templates).imp ?_
    rintro t u ⟨f, ht, hu⟩
    refine ⟨(forall₂_comp ht.slots hu.slots).imp ?_⟩
    rintro a b ⟨s, ha, hb⟩
    exact ⟨ha.name.twins hb.name, ha.flags.trans hb.flags.symm⟩
  constants := by
    refine (forall₂_comp h.constants h'.constants).imp ?_
    rintro k l ⟨c, hk, hl⟩
    cases hk with
    | str hk =>
      cases hl with
      | str hl => exact .str ⟨_, hk, hl⟩
    | _ =>
      cases hl
      constructor
  base := h.base.trans h'.base.symm
  code := h.code.trans h'.code.symm

namespace CodeUnit

theorem twins_of_load (hu : (load i image).1 = .ok u) (hv : (load j image).1 = .ok v) :
    u.toDraft.Twins u.interner v.interner v.toDraft :=
  (acceptedAs_of_load hu).spells.twins (acceptedAs_of_load hv).spells

end CodeUnit

/-! ## Look-ups -/

namespace Draft.Twins

variable {d e : Draft}

theorem constant (h : d.Twins i j e) (n : UInt16) :
    ExceptRel (fun e f => e.report i = f.report j) (Constant.Twins i j) (d.constant n)
      (e.constant n) := by
  have hsize : d.constants.size = e.constants.size := h.constants.length_eq
  unfold Draft.constant
  rcases forall₂_toArray_cases h.constants n.toNat with ⟨hk, hl⟩ | ⟨k, l, hk, hl, hkl⟩
  · rw [hk, hl, hsize]
    exact .error rfl
  · rw [hk, hl]
    exact .ok hkl

theorem multiname (h : d.Twins i j e) (n : UInt16) :
    ExceptRel (fun e f => e.report i = f.report j) (Multiname.Twins i j) (d.multinames.get n)
      (e.multinames.get n) := by
  have hsize : d.multinames.size = e.multinames.size := h.multinames.length_eq
  unfold MultinameTable.get MultinameTable.resolve
  rcases forall₂_toArray_cases h.multinames n.toNat with ⟨hm, hn⟩ | ⟨k, l, hm, hn, hmn⟩
  · rw [hm, hn, hsize]
    exact .error rfl
  · rw [hm, hn]
    exact .ok hmn

theorem template (h : d.Twins i j e) (n : UInt16) :
    ExceptRel (fun e f => e.report i = f.report j) (Template.Twins i j) (d.templates.get n)
      (e.templates.get n) := by
  have hsize : d.templates.size = e.templates.size := h.templates.length_eq
  unfold Arena.get
  rcases forall₂_toArray_cases h.templates n.toNat with ⟨ht, hu⟩ | ⟨k, l, ht, hu, htu⟩
  · rw [ht, hu, hsize]
    exact .error rfl
  · rw [ht, hu]
    exact .ok htu

end Draft.Twins

theorem Constant.Twins.ofConstant (h : Constant.Twins i j k l) :
    Value.ofConstant i k = Value.ofConstant j l := by
  cases h with
  | str h => exact congrArg Value.str h.text
  | _ => rfl

/-! ## Listings -/

theorem Constant.Twins.toText (h : Constant.Twins i j k l) : k.toText i = l.toText j := by
  cases h with
  | str h => exact congrArg Text.Quoted.encode h.text
  | _ => rfl

theorem Template.Twins.toText (h : Template.Twins i j t u) : t.toText i = u.toText j := by
  have hnames : t.names.map (·.toText i) = u.names.map (·.toText j) := by
    simp only [Template.names, map_map]
    rw [← forall₂_eq_eq_eq, forall₂_map_left_iff, forall₂_map_right_iff]
    exact h.slots.imp fun _ _ hde => hde.name.toText
  simp only [Template.toText, hnames]

theorem toOption_map_of_twins {R : α → β → Prop} {E : ε → ε' → Prop} {x : Except ε α}
    {y : Except ε' β} {f : α → γ} {g : β → γ} (h : ExceptRel E R x y)
    (hfg : ∀ a b, R a b → f a = g b) : x.toOption.map f = y.toOption.map g := by
  cases h with
  | error => rfl
  | ok hab => exact congrArg some (hfg _ _ hab)

namespace CodeUnit

variable {u v : CodeUnit}

theorem comment?_of_twins (h : u.toDraft.Twins u.interner v.interner v.toDraft) (c : Instruction) :
    u.comment? c = v.comment? c := by
  cases c with
  | constant n => exact toOption_map_of_twins (h.constant n) fun _ _ hkl => hkl.toText
  | pushFrame n => exact toOption_map_of_twins (h.template n) fun _ _ htu => htu.toText
  | pop | popFrame | ret => rfl
  | multiname n | dotRead n | lexicalRead n | lexicalWrite n | lexicalAssign n =>
    exact toOption_map_of_twins (h.multiname n) fun _ _ hmn => hmn.toText

theorem listing_of_twins (h : u.toDraft.Twins u.interner v.interner v.toDraft) :
    u.listing = v.listing := by
  simp only [listing, line, comment?_of_twins h, h.code]

end CodeUnit

end ScopeMachine
