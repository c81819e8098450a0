import ScopeMachine.Proofs.Code.Acceptance
import ScopeMachine.Value

/-!
# Units read back as their images

Read through its interner, a unit that was loaded is its image, but for namespaces that a reference
lists more than once (`Draft.written`). Loading takes no text out of the interner and moves none;
it adds the texts of the image that are new, in their order, and all of them if it succeeds
(`CodeUnit.Loading`).
-/

namespace ScopeMachine

open Interner List

variable {i k : Interner}

/-! ## Reading back -/

def Multiname.written (i : Interner) (m : Multiname) : Image.Reference :=
  ⟨i.text m.name, m.namespaces.map i.text⟩

def Declaration.written (i : Interner) (d : Declaration) : Image.Slot :=
  ⟨i.text d.name.name, d.name.qualifier.map i.text, d.flags.hoisted, d.flags.immutable⟩

def Template.written (i : Interner) (t : Template) : Image.Frame :=
  ⟨t.parent, t.slots.map (·.written i)⟩

def Constant.written (i : Interner) : Constant → Image.Constant
  | undefined => .undefined
  | null => .null
  | bool b => .bool b
  | int n => .int n
  | float x => .float x
  | str s => .str (i.text s)

/-- The image that the tables stand for, entry by entry. -/
def Draft.written (i : Interner) (d : Draft) : Image where
  multinames := d.multinames.entries.toList.map (·.written i)
  frames := d.templates.templates.toList.map (·.written i)
  constants := d.constants.toList.map (·.written i)
  base := d.base
  code := d.code.toList

/-- The reference with each namespace where it comes first and nowhere else. -/
def Image.Reference.concise (r : Reference) : Reference :=
  { r with namespaces := r.namespaces.eraseDups }

def Image.concise (image : Image) : Image :=
  { image with multinames := image.multinames.map (·.concise) }

theorem Multiname.Spells.written {m : Multiname} (h : m.Spells i r) : m.written i = r.concise := by
  have hnamespaces := map_eq_of_forall₂ h.namespaces fun _ _ h => h.text
  simp only [Multiname.written, Image.Reference.concise, h.name.text, hnamespaces]

theorem Declaration.Spells.written {d : Declaration} (h : d.Spells i s) : d.written i = s := by
  have htexts := h.name.texts_eq
  simp only [QualifiedName.texts, Image.Slot.key, Prod.mk.injEq] at htexts
  simp only [Declaration.written, htexts, h.flags]

theorem Template.Spells.written {t : Template} (h : t.Spells i f) : t.written i = f := by
  have hslots := map_eq_of_forall₂ h.slots fun _ _ h => h.written
  simp only [Template.written, h.parent, hslots]

theorem Constant.Spells.written {c : Constant} (h : c.Spells i w) : c.written i = w := by
  cases h with
  | str h => rw [Constant.written, h.text]
  | _ => rfl

theorem Constant.Spells.ofConstant (h : Spells i c w) : Value.ofConstant i c = .ofWritten w := by
  cases h with
  | str h => rw [Value.ofConstant, h.text, Value.ofWritten]
  | _ => rfl

theorem Draft.Spells.written {d : Draft} (h : d.Spells image) (hk : d.interner ≤ k) :
    d.written k = image.concise := by
  have hmultinames : d.multinames.entries.toList.map (·.written k) =
      image.multinames.map (·.concise) :=
    map_eq_of_forall₂ (forall₂_map_right_iff.mpr
      (h.multinames.imp fun _ _ h => (interns_internReference.mono hk h).written)) fun _ _ h => h
  have hframes : d.templates.templates.toList.map (·.written k) = image.frames :=
    map_eq_of_forall₂ h.templates fun _ _ h => (h.mono hk).written
  have hconstants : d.constants.toList.map (·.written k) = image.constants :=
    map_eq_of_forall₂ h.constants fun _ _ h => (interns_internConstant.mono hk h).written
  simp only [Draft.written, Image.concise, hmultinames, hframes, hconstants, h.base, h.code]

theorem Draft.Spells.values {d : Draft} (h : d.Spells image) (hk : d.interner ≤ k) :
    d.constants.toList.map (Value.ofConstant k) = image.constants.map Value.ofWritten :=
  map_eq_of_forall₂ (forall₂_map_right_iff.mpr
    (h.constants.imp fun _ _ h => (interns_internConstant.mono hk h).ofConstant)) fun _ _ h => h

/-! ## What loading leaves behind -/

theorem Image.Refused.ne_intern (h : Refused image r) : r ≠ .plain (.intern cause) := by
  rintro rfl
  cases h with
  | frame _ _ _ hr => cases hr
  | code _ _ _ _ he =>
    generalize herror : LoadError.intern cause = e at he
    cases he with
    | garbled _ _ hgarbled => cases hgarbled <;> cases herror
    | @index _ i => cases i <;> cases herror

namespace CodeUnit

structure Loading (i : Interner) (image : Image) : Prop where
  /-- Each text that was there before keeps its number and is still read under it. -/
  kept : ∀ s n, i.get? s = some n →
    (load i image).2.get? s = some n ∧ (load i image).2.text n = s
  /-- What is added is what is new among the texts of the image up to some point. -/
  added : ∃ texts, texts <+: image.texts ∧
    (load i image).2.texts.toList = i.texts.toList ++ i.unknown texts
  bounded : i.size ≤ nameLimit → (load i image).2.size ≤ nameLimit
  /-- If no name is left, it is for the next text, which is new. -/
  full : ∀ cause, (load i image).1 = .error (.intern cause) →
    cause = .overflow (load i image).2.size ∧ nameLimit ≤ (load i image).2.size ∧
      ∃ texts s, texts ++ [s] <+: image.texts ∧ s ∉ (load i image).2.texts.toList ∧
        (load i image).2.texts.toList = i.texts.toList ++ i.unknown texts
  loaded : ∀ u, (load i image).1 = .ok u → u.interner = (load i image).2
  /-- With a unit, all texts of the image are there. -/
  all_added : ∀ u, (load i image).1 = .ok u →
    u.interner.texts.toList = i.texts.toList ++ i.unknown image.texts
  /-- The tables of a unit stand for the image, in every later state of the interner too. -/
  written : ∀ u k, (load i image).1 = .ok u → u.interner ≤ k → u.written k = image.concise
  values : ∀ u k, (load i image).1 = .ok u → u.interner ≤ k →
    u.constants.toList.map (Value.ofConstant k) = image.constants.map Value.ofWritten

/-- Whatever becomes of the image, its texts are interned from the front. -/
theorem interner_load (i : Interner) (image : Image) :
    ∃ texts, texts <+: image.texts ∧ (load i image).2 = i.internAll texts := by
  have houtcome := load_outcome i image
  generalize load i image = outcome at houtcome ⊢
  -- however loading ends, it has interned a front part of the texts
  cases houtcome with
  | ok => exact ⟨_, prefix_rfl, rfl⟩
  | full hout =>
    obtain ⟨front, s, hfront, -, hj, -⟩ := hout.stops
    exact ⟨front, (prefix_append ..).trans hfront, hj.symm⟩
  | refused hfront => exact ⟨_, hfront, rfl⟩

theorem interner_of_load (h : (load i image).1 = .ok u) :
    u.interner = i.internAll image.texts := by
  have houtcome := load_outcome i image
  generalize load i image = outcome at houtcome h
  cases houtcome with
  | ok _ haccepted =>
    cases h
    exact haccepted.interner
  | full => cases h
  | refused => cases h

/-- Loading keeps what was interned before, adds texts of the image only, and those in their order;
a unit that is loaded reads back as its image, with references concise. -/
theorem load_reads_back (i : Interner) (image : Image) : Loading i image := by
  obtain ⟨texts, hfront, hlater⟩ := interner_load i image
  exact
    { kept := fun s n hn => by
        have hspells := (get?_eq_some_iff.mp hn).mono (i.le_internAll texts)
        rw [hlater]
        exact ⟨get?_eq_some_iff.mpr hspells, hspells.text⟩
      added := ⟨texts, hfront, by rw [hlater, texts_internAll]⟩
      bounded := fun hroom => size_load_le hroom image
      full := fun cause hcause => by
        -- a report on the image is never that of the interner
        rcases load_cases i image with hout | ⟨u, hu, -⟩ | ⟨e, he, hrefused⟩
        · obtain ⟨hfull, front, s, hfront, -, hj, hnew⟩ := hout.runsOut
          cases hcause.symm.trans hout.error
          refine ⟨rfl, hfull, front, s, hfront, get?_eq_none_iff.mp hnew, ?_⟩
          rw [← hj, texts_internAll]
        · cases hcause.symm.trans hu
        · cases hcause.symm.trans he
          exact absurd rfl ((hrefused.refused_iff _).mpr rfl).ne_intern
      loaded := fun u hu => (acceptedAs_of_load hu).interner
      all_added := fun u hu => by rw [interner_of_load hu, texts_internAll]
      written := fun u k hu => (acceptedAs_of_load hu).spells.written
      values := fun u k hu => (acceptedAs_of_load hu).spells.values }

end CodeUnit

/-- A namespace comes twice, and a text is a name, a namespace and a constant in turn. -/
theorem CodeUnit.shared_texts_read_back :
    let image : Image := ⟨[⟨"a", ["b", "", "b"]⟩], [⟨none, [⟨"b", some "", true, false⟩]⟩],
      [.str "c", .str "a"], 0, Instruction.assemble [.constant 1, .lexicalRead 0]⟩
    ∃ u, (load .new image).1 = .ok u ∧ u.interner.get? "" = some .empty ∧
      u.interner.texts.toList = ["", "a", "b", "c"] ∧
      u.written u.interner = { image with multinames := [⟨"a", ["b", ""]⟩] } := by
  intro image
  have hsound : image.Sound :=
    { multinames := by decide
      frames := by
        rintro (_ | n) f hf
        · cases hf
          exact ⟨by decide, by simp, by decide⟩
        · cases hf
      base := by decide
      constants := by decide
      code := by
        refine ⟨[.constant 1, .lexicalRead 0], rfl, fun i hi n hn => ?_⟩
        rcases List.mem_pair.mp hi with rfl | rfl
        all_goals
          cases hn
          decide }
  obtain ⟨u, hu⟩ := exists_load_of_sound hsound (i := .new) (by decide)
  have h := load_reads_back .new image
  refine ⟨u, hu, ?_, ?_, ?_⟩
  · rw [h.loaded u hu]
    exact (h.kept "" .empty (by cbv)).1
  · rw [h.all_added u hu]
    cbv
  · rw [h.written u u.interner hu le_rfl]
    cbv

end ScopeMachine
