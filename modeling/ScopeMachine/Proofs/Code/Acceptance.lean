import ScopeMachine.Proofs.Code.Decoding
import ScopeMachine.Proofs.Code.Spelling

/-!
# Which images are loaded

An image is `Sound` if its tables fit their indices, its frames are in order and its code is a
program whose indices stay within the tables. Any other image is `Refused`, with a report of the
first thing that is wrong with it, in the order in which a reader goes through the image. Both are
said of texts and bytes alone. Loading decides them (`CodeUnit.load_decides`), whatever the interner
holds before, unless it holds so much that no name is left for a text of the image.
-/

namespace ScopeMachine

open Instruction Interner List

/-! ## Sound images and the reports of others -/

def Opcode.outOfRange : Opcode → Nat → Nat → LoadError
  | .constant => .constantOutOfRange
  | .pushFrame => .frameOutOfRange
  | _ => .multinameOutOfRange

namespace Image

structure Frame.Sound (n : Nat) (f : Frame) : Prop where
  number : n < tableLimit
  parent : ∀ p, f.parent = some p → p.toNat < n
  slots : f.keys.Nodup

/-- The first thing that is wrong with the frame with the number `n`. -/
inductive Frame.Refused (n : Nat) (f : Frame) : LoadError.Report → Prop
  | number : tableLimit ≤ n → f.Refused n (.plain (.tableTooLarge (n + 1)))
  | parent : n < tableLimit → f.parent = some p → n ≤ p.toNat →
      f.Refused n (.plain (.parentNotDeclared n p.toNat))
  | slot : n < tableLimit → (∀ p, f.parent = some p → p.toNat < n) → f.keys[k]? = some key →
      (f.keys.take k).Nodup → key ∈ f.keys.take k → f.Refused n (.duplicateSlot n key)

variable (image : Image)

def tableLength : Opcode → Nat
  | .constant => image.constants.length
  | .multiname | .dotRead | .lexicalRead | .lexicalWrite | .lexicalAssign =>
    image.multinames.length
  | .pushFrame => image.frames.length
  | .pop | .popFrame | .ret => 0

def Covers (i : Instruction) : Prop :=
  ∀ n, i.index? = some n → n.toNat < image.tableLength i.opcode

def FramesSound : Prop :=
  ∀ (n : Nat) (f : Frame), image.frames[n]? = some f → f.Sound n

structure Sound : Prop where
  multinames : image.multinames.length ≤ tableLimit
  frames : image.FramesSound
  base : image.base.toNat < image.frames.length
  constants : image.constants.length ≤ tableLimit
  code : ∃ p, image.code = assemble p ∧ ∀ i ∈ p, image.Covers i

/-- The first thing that is wrong with the code, behind a program that is in order. -/
inductive CodeRefused : LoadError → Prop
  | garbled : image.code = assemble p ++ rest → (∀ i ∈ p, image.Covers i) →
      Garbled (assemble p).length rest e → CodeRefused e
  | index {p : List Instruction} {i : Instruction} {rest : List UInt8} {n : UInt16} :
      image.code = assemble p ++ (i.encode ++ rest) → (∀ j ∈ p, image.Covers j) →
      i.index? = some n → image.tableLength i.opcode ≤ n.toNat →
      CodeRefused (i.opcode.outOfRange n.toNat (image.tableLength i.opcode))

/-- The first thing that is wrong with the image. -/
inductive Refused : LoadError.Report → Prop
  | multinames : tableLimit < image.multinames.length →
      Refused (.plain (.tableTooLarge image.multinames.length))
  | frame : image.multinames.length ≤ tableLimit → image.frames[n]? = some f →
      (∀ k < n, ∀ g : Frame, image.frames[k]? = some g → g.Sound k) → f.Refused n r → Refused r
  | base : image.multinames.length ≤ tableLimit → image.FramesSound →
      image.frames.length ≤ image.base.toNat →
      Refused (.plain (.frameOutOfRange image.base.toNat image.frames.length))
  | constants : image.multinames.length ≤ tableLimit → image.FramesSound →
      image.base.toNat < image.frames.length → tableLimit < image.constants.length →
      Refused (.plain (.tableTooLarge image.constants.length))
  | code : image.multinames.length ≤ tableLimit → image.FramesSound →
      image.base.toNat < image.frames.length → image.constants.length ≤ tableLimit →
      image.CodeRefused e → Refused (.plain e)

end Image

/-! ## Frames -/

theorem firstRepeated?_eq_some_iff {seen names : List QualifiedName} {q : QualifiedName} :
    firstRepeated? seen names = some q ↔
      ∃ k : Nat, names[k]? = some q ∧ (names.take k).Nodup ∧ (∀ x ∈ names.take k, x ∉ seen) ∧
        (q ∈ names.take k ∨ q ∈ seen) := by
  induction names generalizing seen with
  | nil => simp [firstRepeated?]
  | cons x rest ih =>
    by_cases hx : x ∈ seen
    · simp only [firstRepeated?, hx, if_true, Option.some.injEq]
      constructor
      · rintro rfl
        exact ⟨0, by simp [hx]⟩
      · rintro ⟨_ | k, hk, -, hfresh, -⟩
        · simpa using hk
        · exact absurd hx (hfresh x (by simp))
    · simp only [firstRepeated?, hx, if_false, ih]
      -- the entry in front is not seen, and seen by those behind it
      constructor
      · rintro ⟨k, hk, hnodup, hfresh, hq⟩
        refine ⟨k + 1, hk, ?_⟩
        simp only [take_succ_cons, nodup_cons, mem_cons, forall_eq_or_imp]
        grind
      · rintro ⟨_ | k, hk, hnodup, hfresh, hq⟩
        · simp_all
        · refine ⟨k, hk, ?_⟩
          simp only [take_succ_cons, nodup_cons, mem_cons, forall_eq_or_imp] at hnodup hfresh hq ⊢
          grind

/-- What can speak against a template, the first of these first. -/
theorem Arena.objection?_eq_some_iff {a : Arena} {t : Template} {e : LoadError} :
    a.objection? t = some e ↔
      (tableLimit ≤ a.templates.size ∧ e = .tableTooLarge (a.templates.size + 1)) ∨
      a.templates.size < tableLimit ∧
        ((∃ p, t.parent = some p ∧ a.templates.size ≤ p.toNat ∧
            e = .parentNotDeclared a.templates.size p.toNat) ∨
          (∀ p, t.parent = some p → p.toNat < a.templates.size) ∧
            ∃ (k : Nat) (q : QualifiedName), t.names[k]? = some q ∧ (t.names.take k).Nodup ∧
              q ∈ t.names.take k ∧ e = .duplicateSlot a.templates.size q) := by
  unfold objection?
  split
  next hfull => simp [hfull, Nat.not_lt.mpr hfull, eq_comm]
  next hroom =>
    have hroom : a.templates.size < tableLimit := by omega
    have hrepeated : (firstRepeated? [] t.names).map (.duplicateSlot a.templates.size) = some e ↔
        ∃ (k : Nat) (q : QualifiedName), t.names[k]? = some q ∧ (t.names.take k).Nodup ∧
          q ∈ t.names.take k ∧ e = .duplicateSlot a.templates.size q := by
      simp only [Option.map_eq_some_iff, firstRepeated?_eq_some_iff, not_mem_nil,
        not_false_eq_true, implies_true, true_and, or_false]
      grind
    cases hp : t.parent with
    | none => simp [hroom, hrepeated, Nat.not_le.mpr hroom]
    | some p =>
      by_cases hlate : a.templates.size ≤ p.toNat
      · simp [hroom, hlate, Nat.not_le.mpr hroom, Option.filter, Nat.not_lt.mpr hlate, eq_comm]
      · simp [hroom, hlate, Nat.not_le.mpr hroom, Option.filter, Nat.not_le.mp hlate, hrepeated]

namespace Image

theorem Frame.Sound.not_refused {f : Frame} (hf : f.Sound n) : ¬f.Refused n r := by
  intro h
  cases h with
  | number h => exact absurd hf.number (by omega)
  | parent _ hp h => exact absurd (hf.parent _ hp) (by omega)
  | @slot k key _ _ hk _ hmem =>
    obtain ⟨m, hm, rfl⟩ := mem_take_iff_getElem.mp hmem
    have hlt : m < f.keys.length := by omega
    have heq : f.keys[m]? = f.keys[k]? := by rw [hk, getElem?_eq_getElem hlt]
    have := (getElem?_inj hlt hf.slots).mp heq
    omega

end Image

namespace Template.Spells

variable {a : Arena} {t : Template} {f : Image.Frame}

theorem nodup_iff (h : t.Spells i f) : t.names.Nodup ↔ f.keys.Nodup :=
  rel_nodup (QualifiedName.biUnique_spells i) h.names

theorem sound (h : t.Spells i f) (ht : a.templates[n]? = some t) : f.Sound n where
  number := Nat.lt_of_lt_of_le (Array.getElem?_eq_some_iff.mp ht).1 a.size_le
  parent p hp := a.parent_lt n t p ht (h.parent.trans hp)
  slots := h.nodup_iff.mp (a.names_nodup n t ht)

theorem objection?_eq_none_iff (h : t.Spells i f) :
    a.objection? t = none ↔ f.Sound a.templates.size := by
  rw [Arena.objection?_eq_none_iff, h.parent, h.nodup_iff]
  exact ⟨fun ⟨hn, hp, hs⟩ => ⟨hn, hp, hs⟩, fun hf => ⟨hf.number, hf.parent, hf.slots⟩⟩

theorem refused_iff (h : t.Spells i f) :
    f.Refused a.templates.size r ↔ ∃ e, a.objection? t = some e ∧ e.report i = r := by
  have hunique := QualifiedName.biUnique_spells i
  have hfirst (k : Nat) := forall₂_take k h.names
  constructor
  · intro hr
    cases hr with
    | number hfull => exact ⟨_, Arena.objection?_eq_some_iff.mpr (.inl ⟨hfull, rfl⟩), rfl⟩
    | parent hroom hp hlate =>
      have he := Arena.objection?_eq_some_iff.mpr
        (.inr ⟨hroom, .inl ⟨_, h.parent.trans hp, hlate, rfl⟩⟩)
      exact ⟨_, he, rfl⟩
    | @slot k key hroom hearly hk hnodup hmem =>
      obtain ⟨q, hq, hspells⟩ := rel_some_right.mp (hk ▸ forall₂_getElem? h.names k)
      have hnodup := (rel_nodup hunique (hfirst k)).mpr hnodup
      have hmem := (rel_mem hunique hspells (hfirst k)).mpr hmem
      have he := Arena.objection?_eq_some_iff.mpr
        (.inr ⟨hroom, .inr ⟨h.parent ▸ hearly, k, q, hq, hnodup, hmem, rfl⟩⟩)
      exact ⟨_, he, by rw [LoadError.report, hspells.texts_eq]⟩
  · rintro ⟨e, he, rfl⟩
    rcases Arena.objection?_eq_some_iff.mp he with
      ⟨hfull, rfl⟩ | ⟨hroom, ⟨p, hp, hlate, rfl⟩ | ⟨hearly, k, q, hq, hnodup, hmem, rfl⟩⟩
    · exact .number hfull
    · exact .parent hroom (h.parent.symm.trans hp) hlate
    · obtain ⟨key, hk, hspells⟩ := rel_some_left.mp (hq ▸ forall₂_getElem? h.names k)
      rw [LoadError.report, hspells.texts_eq]
      refine .slot hroom (h.parent ▸ hearly) hk ?_ ?_
      · exact (rel_nodup hunique (hfirst k)).mp hnodup
      · exact (rel_mem hunique hspells (hfirst k)).mp hmem

end Template.Spells

theorem Arena.sound_of_spells {a : Arena} {f : Image.Frame}
    (ha : Forall₂ (Template.Spells i) a.templates.toList frames) (hf : frames[n]? = some f) :
    f.Sound n := by
  obtain ⟨t, ht, hspells⟩ := rel_some_right.mp (hf ▸ forall₂_getElem? ha n)
  exact hspells.sound (by simpa using ht)

/-- The first of the frames that is not sound, and what is wrong with it. -/
def Image.Blamed (frames : List Image.Frame) (r : LoadError.Report) : Prop :=
  ∃ (n : Nat) (f : Image.Frame), frames[n]? = some f ∧
    (∀ m < n, ∀ g : Image.Frame, frames[m]? = some g → g.Sound m) ∧ f.Refused n r

theorem Image.blamed_iff {front frames : List Image.Frame} {f : Image.Frame}
    (hfront : ∀ (m : Nat) (g : Image.Frame), front[m]? = some g → g.Sound m)
    (hf : ¬f.Sound front.length) :
    Image.Blamed (front ++ f :: frames) r ↔ f.Refused front.length r := by
  constructor
  · rintro ⟨n, g, hg, hsound, hr⟩
    -- no frame in front of this one is to blame, and none behind it is the first
    rcases Nat.lt_trichotomy n front.length with hn | rfl | hn
    · rw [getElem?_append_left hn] at hg
      exact absurd hr (hfront n g hg).not_refused
    · obtain rfl : f = g := by simpa using hg
      exact hr
    · exact absurd (hsound _ hn f (by simp)) hf
  · intro hr
    refine ⟨front.length, f, by simp, fun m hm g hg => hfront m g ?_, hr⟩
    rwa [getElem?_append_left hm] at hg

namespace CodeUnit

theorem loadTemplate_outcome {a : Arena} {front : List Image.Frame}
    (ha : Forall₂ (Template.Spells i) a.templates.toList front) (f : Image.Frame) :
    Loader.Outcome i f.texts
      (fun j b => Forall₂ (Template.Spells j) b.templates.toList (front ++ [f]))
      (fun j e => ¬f.Sound front.length ∧ ∀ r, f.Refused front.length r ↔ e.report j = r)
      ((loadTemplate a f).run i) := by
  have hlength : a.templates.size = front.length := ha.length_eq
  rw [← append_nil f.texts]
  refine (interns_internSlot.mapM.run i f.slots).bind fun slots hslots => ?_
  have ht : Template.Spells (i.internAll f.texts) ⟨f.parent, slots⟩ f := ⟨rfl, hslots⟩
  rw [← hlength, ← ht.objection?_eq_none_iff]
  cases hfree : a.objection? ⟨f.parent, slots⟩ with
  | none =>
    obtain ⟨b, hpush, hb⟩ := Arena.push_of_objection? hfree
    simp only [hpush]
    refine .pure _ ?_
    rw [hb, Array.toList_push]
    exact rel_append (ha.imp fun _ _ h => h.mono (le_internAll ..)) (.cons ht .nil)
  | some e =>
    simp only [Arena.push_of_objection?_eq_some hfree]
    refine .refused nil_prefix (.nil _) ⟨by simp, fun r => ?_⟩
    refine ht.refused_iff.trans ?_
    simp [hfree, Image.Frame.texts]

theorem loadTemplates_outcome {a : Arena} {front frames : List Image.Frame}
    (ha : Forall₂ (Template.Spells i) a.templates.toList front) :
    Loader.Outcome i (frames.flatMap Image.Frame.texts)
      (fun j b => Forall₂ (Template.Spells j) b.templates.toList (front ++ frames))
      (fun j e => ∀ r, Image.Blamed (front ++ frames) r ↔ e.report j = r)
      ((frames.foldlM loadTemplate a).run i) := by
  induction frames generalizing i a front with
  | nil => exact .pure i (by simpa using ha)
  | cons f frames ih =>
    rw [foldlM_cons, flatMap_cons]
    refine ((loadTemplate_outcome ha f).imp_refused ?_).bind fun b hb => by simpa using ih hb
    rintro j e ⟨hf, hr⟩ r
    -- the frames in front are sound, as their templates stand in the arena
    rw [Image.blamed_iff (fun _ _ => Arena.sound_of_spells ha) hf, hr]

end CodeUnit

/-! ## Code -/

theorem Image.CodeRefused.report {image : Image} (h : image.CodeRefused e) :
    e.report i = .plain e := by
  cases h with
  | garbled _ _ h => cases h <;> rfl
  | @index _ i => cases i <;> rfl

namespace Draft

theorem errorOf?_constant (d : Draft) (n : UInt16) : errorOf? (d.constant n) =
    if n.toNat < d.constants.size then none
    else some (.constantOutOfRange n.toNat d.constants.size) := by
  unfold constant
  by_cases h : n.toNat < d.constants.size <;> simp [h, errorOf?]

theorem errorOf?_multiname (t : MultinameTable) (n : UInt16) : errorOf? (t.get n) =
    if n.toNat < t.entries.size then none
    else some (.multinameOutOfRange n.toNat t.entries.size) := by
  unfold MultinameTable.get MultinameTable.resolve
  by_cases h : n.toNat < t.entries.size <;> simp [h, errorOf?, MultinameTable.size]

theorem errorOf?_template (a : Arena) (n : UInt16) : errorOf? (a.get n) =
    if n.toNat < a.templates.size then none
    else some (.frameOutOfRange n.toNat a.templates.size) := by
  unfold Arena.get
  by_cases h : n.toNat < a.templates.size <;> simp [h, errorOf?, Arena.size]

/-- What is wrong with an index comes before what stopped the decoding. -/
theorem codeFault?_eq {d : Draft} (h : (decode d.code).instructions = layout 0 p) :
    d.codeFault? = (p.findSome? d.indexFault?).or (decode d.code).fault := by
  have hlayout : (layout 0 p).findSome? (fun entry => d.indexFault? entry.2) =
      p.findSome? d.indexFault? := by
    rw [← map_snd_layout 0 p, findSome?_map, map_snd_layout]
    rfl
  rw [codeFault?, h]
  simp only [hlayout]
  cases p.findSome? d.indexFault? <;> rfl

end Draft

namespace Draft.Spells

variable {d : Draft} {image : Image}

theorem indexFault?_eq (h : d.Spells image) (i : Instruction) :
    d.indexFault? i = i.index?.bind fun n =>
      if n.toNat < image.tableLength i.opcode then none
      else some (i.opcode.outOfRange n.toNat (image.tableLength i.opcode)) := by
  have hmultinames : d.multinames.entries.size = image.multinames.length := h.multinames.length_eq
  have htemplates : d.templates.templates.size = image.frames.length := h.templates.length_eq
  have hconstants : d.constants.size = image.constants.length := h.constants.length_eq
  cases i with
  | constant n => exact (errorOf?_constant d n).trans (hconstants ▸ rfl)
  | pushFrame n => exact (errorOf?_template d.templates n).trans (htemplates ▸ rfl)
  | pop | popFrame | ret => rfl
  | multiname n | dotRead n | lexicalRead n | lexicalWrite n | lexicalAssign n =>
    exact (errorOf?_multiname d.multinames n).trans (hmultinames ▸ rfl)

theorem indexFault?_eq_none_iff (h : d.Spells image) {i : Instruction} :
    d.indexFault? i = none ↔ image.Covers i := by
  rw [h.indexFault?_eq]
  simp [Option.bind_eq_none_iff, Image.Covers]

theorem indexFault?_eq_some_iff (h : d.Spells image) {i : Instruction} :
    d.indexFault? i = some e ↔ ∃ n, i.index? = some n ∧ image.tableLength i.opcode ≤ n.toNat ∧
      e = i.opcode.outOfRange n.toNat (image.tableLength i.opcode) := by
  rw [h.indexFault?_eq]
  simp only [Option.bind_eq_some_iff, Option.ite_none_left_eq_some, Option.some.injEq, Nat.not_lt]
  exact exists_congr fun n => and_congr_right' (and_congr_right' eq_comm)

theorem findSome?_indexFault? {p : List Instruction} (h : d.Spells image)
    (hp : ∀ i ∈ p, image.Covers i) : p.findSome? d.indexFault? = none :=
  findSome?_eq_none_iff.mpr fun i hi => h.indexFault?_eq_none_iff.mpr (hp i hi)

/-- The code is a program whose indices stay within the tables, or the first thing that is wrong
with it is found. -/
theorem codeFault?_cases (h : d.Spells image) :
    (d.codeFault? = none ∧ ∃ p, image.code = assemble p ∧ ∀ i ∈ p, image.Covers i) ∨
      ∃ e, d.codeFault? = some e ∧ image.CodeRefused e := by
  obtain ⟨p, stop, hreads, heq, hend⟩ := decode_reads d.code
  have hstop : stop = (assemble p).length := by simpa using hreads.end_eq
  rw [h.code] at hreads hend
  obtain ⟨rest, hcode⟩ := Reads.bytes [] image.code hreads
  rw [codeFault?_eq heq, h.code]
  cases hindex : p.findSome? d.indexFault? with
  | some e =>
    refine .inr ⟨e, rfl, ?_⟩
    obtain ⟨front, i, back, rfl, hi, hfront⟩ := findSome?_eq_some_iff.mp hindex
    obtain ⟨n, hn, hbeyond, rfl⟩ := h.indexFault?_eq_some_iff.mp hi
    have hcode : image.code = assemble front ++ (i.encode ++ (assemble back ++ rest)) := by
      simpa [assemble] using hcode
    exact .index hcode (fun j hj => h.indexFault?_eq_none_iff.mp (hfront j hj)) hn hbeyond
  | none =>
    -- all indices are in order, so it is for the end of the decoding to decide
    have hcovers (i : Instruction) (hi : i ∈ p) : image.Covers i :=
      h.indexFault?_eq_none_iff.mp (findSome?_eq_none_iff.mp hindex i hi)
    rcases hend with ⟨hfault, hsize⟩ | ⟨e, hfault, hlt, he⟩
    · refine .inl ⟨by simpa using hfault, p, ?_, hcovers⟩
      have hlength := congrArg length hcode
      have hrest : rest = [] := by
        rw [← length_eq_zero_iff]
        simp only [length_append, List.size_toArray] at hlength hsize
        omega
      rw [hcode, hrest, append_nil]
    · refine .inr ⟨e, by simpa using hfault, ?_⟩
      rw [hcode, hstop] at he
      have hne : rest ≠ [] := by
        rintro rfl
        simp [hcode, hstop] at hlt
      rcases decodeAt_cases (assemble p) hne with ⟨i, back, -, hi⟩ | ⟨e', hgarbled⟩
      · cases hi.symm.trans he
      · obtain rfl : e' = e := Except.error.inj (hgarbled.decodeAt.symm.trans he)
        exact .garbled hcode hcovers hgarbled

theorem codeFault?_of_covers (h : d.Spells image) (hcode : image.code = assemble p)
    (hp : ∀ i ∈ p, image.Covers i) : d.codeFault? = none := by
  have hdecode := decode_assemble p
  rw [← hcode, ← h.code] at hdecode
  rw [codeFault?_eq (congrArg Stream.instructions hdecode), h.findSome?_indexFault? hp, hdecode]
  rfl

theorem codeFault?_of_codeRefused (h : d.Spells image) (he : image.CodeRefused e) :
    d.codeFault? = some e := by
  cases he with
  | @garbled p rest e hcode hp hgarbled =>
    have hdecode := decode_assemble_append p rest
    have hrest : rest ≠ [] := by
      rintro rfl
      cases hgarbled
    have hfault := hgarbled.decodeAt
    rw [decodeFrom, if_pos (by simpa [length_pos_iff] using hrest), ← length_assemble, hfault,
      reverse_reverse, ← hcode, ← h.code] at hdecode
    rw [codeFault?_eq (congrArg Stream.instructions hdecode), h.findSome?_indexFault? hp, hdecode]
    rfl
  | @index p i rest n hcode hp hn hbeyond =>
    have hall : image.code = assemble (p ++ [i]) ++ rest := by simpa [assemble] using hcode
    have hdecode := decode_assemble_append (p ++ [i]) rest
    -- whatever is decoded behind the instruction, its index is looked at before
    have hle : span (p ++ [i]) ≤ (assemble (p ++ [i]) ++ rest).toArray.size := by simp
    obtain ⟨q, -, -, heq, -⟩ := decodeFrom_reads (layout 0 (p ++ [i])).reverse hle
    rw [reverse_reverse, ← hdecode, ← hall, ← h.code] at heq
    have hlayout := layout_append 0 (p ++ [i]) q
    rw [Nat.zero_add] at hlayout
    rw [codeFault?_eq (heq.trans hlayout.symm), findSome?_append, findSome?_append,
      h.findSome?_indexFault? hp]
    simp [h.indexFault?_eq_some_iff.mpr ⟨n, hn, hbeyond, rfl⟩]

/-! ## Units -/

theorem fault?_eq (h : d.Spells image) : d.fault? =
    if image.base.toNat < image.frames.length then
      if tableLimit < image.constants.length then some (.tableTooLarge image.constants.length)
      else d.codeFault?
    else some (.frameOutOfRange image.base.toNat image.frames.length) := by
  have htemplates : d.templates.templates.size = image.frames.length := h.templates.length_eq
  have hconstants : d.constants.size = image.constants.length := h.constants.length_eq
  unfold fault?
  rw [errorOf?_template, h.base, htemplates, hconstants]
  by_cases hbase : image.base.toNat < image.frames.length <;> simp [hbase]

theorem fault?_eq_none_iff (h : d.Spells image) (hmultinames : image.multinames.length ≤ tableLimit)
    (hframes : image.FramesSound) : d.fault? = none ↔ image.Sound := by
  rw [h.fault?_eq]
  constructor
  · intro hnone
    -- each test that is passed gives a clause
    have hbase : image.base.toNat < image.frames.length := by
      by_contra hbase
      simp [hbase] at hnone
    have hconstants : image.constants.length ≤ tableLimit := by
      by_contra hmany
      simp [hbase, Nat.not_le.mp hmany] at hnone
    rw [if_pos hbase, if_neg (Nat.not_lt.mpr hconstants)] at hnone
    rcases h.codeFault?_cases with ⟨-, hcode⟩ | ⟨e, he, -⟩
    · exact ⟨hmultinames, hframes, hbase, hconstants, hcode⟩
    · cases he.symm.trans hnone
  · rintro ⟨-, -, hbase, hconstants, p, hcode, hp⟩
    rw [if_pos hbase, if_neg (Nat.not_lt.mpr hconstants)]
    exact h.codeFault?_of_covers hcode hp

theorem fault?_eq_some_iff (h : d.Spells image) (hmultinames : image.multinames.length ≤ tableLimit)
    (hframes : image.FramesSound) :
    (∃ e, d.fault? = some e ∧ e.report i = r) ↔ image.Refused r := by
  rw [h.fault?_eq]
  constructor
  -- the tests come in the order of the report, and each that is passed gives a clause
  · rintro ⟨e, he, rfl⟩
    split at he
    next hbase =>
      split at he
      next hconstants =>
        cases he
        exact .constants hmultinames hframes hbase hconstants
      next hconstants =>
        rcases h.codeFault?_cases with ⟨hnone, -⟩ | ⟨e', he', hrefused⟩
        · cases hnone.symm.trans he
        · obtain rfl : e' = e := Option.some.inj (he'.symm.trans he)
          rw [hrefused.report]
          exact .code hmultinames hframes hbase (Nat.le_of_not_lt hconstants) hrefused
    next hbase =>
      cases he
      exact .base hmultinames hframes (Nat.le_of_not_lt hbase)
  · intro hr
    cases hr with
    | multinames hmany => omega
    | frame _ hf _ hr => exact absurd hr (hframes _ _ hf).not_refused
    | base _ _ hbase => exact ⟨_, if_neg (Nat.not_lt.mpr hbase), rfl⟩
    | constants _ _ hbase hconstants =>
      exact ⟨_, by rw [if_pos hbase, if_pos hconstants], rfl⟩
    | code _ _ hbase hconstants he =>
      rw [if_pos hbase, if_neg (Nat.not_lt.mpr hconstants)]
      exact ⟨_, h.codeFault?_of_codeRefused he, he.report⟩

end Draft.Spells

/-! ## Images -/

namespace Image

variable {image : Image}

/-- An image whose one frame is empty is in order if its tables fit their indices and its program keeps
within them. -/
theorem sound_of_empty_frame {references : List Reference} {constants : List Constant}
    {p : List Instruction} (hreferences : references.length ≤ tableLimit)
    (hconstants : constants.length ≤ tableLimit)
    (hp : ∀ c ∈ p, Covers ⟨references, [⟨none, []⟩], constants, 0, assemble p⟩ c) :
    Sound ⟨references, [⟨none, []⟩], constants, 0, assemble p⟩ where
  multinames := hreferences
  frames n f hf := by
    cases n with
    | zero =>
      cases hf
      exact ⟨by decide, by simp, by decide⟩
    | succ n => cases hf
  base := Nat.zero_lt_one
  constants := hconstants
  code := ⟨p, rfl, hp⟩

structure AcceptedAs (image : Image) (j : Interner) (u : CodeUnit) : Prop where
  sound : image.Sound
  not_refused : ∀ r, ¬image.Refused r
  interner : u.interner = j
  spells : u.toDraft.Spells image

structure RefusedWith (image : Image) (j : Interner) (e : LoadError) : Prop where
  not_sound : ¬image.Sound
  refused_iff : ∀ r, image.Refused r ↔ e.report j = r

variable {image : Image}

theorem refusedWith_of_many (hmany : tableLimit < image.multinames.length) (j : Interner) :
    image.RefusedWith j (.tableTooLarge image.multinames.length) where
  not_sound h := Nat.not_lt.mpr h.multinames hmany
  refused_iff r := by
    constructor
    · intro hr
      cases hr with
      | multinames => rfl
      | frame hfit | base hfit | constants hfit | code hfit => omega
    · rintro rfl
      exact .multinames hmany

theorem refusedWith_of_blamed (hfit : image.multinames.length ≤ tableLimit)
    (he : ∀ r, Blamed image.frames r ↔ e.report j = r) : image.RefusedWith j e := by
  obtain ⟨n, f, hf, -, hr⟩ := (he _).mpr rfl
  have hframes : ¬image.FramesSound := fun h => (h n f hf).not_refused hr
  refine ⟨fun h => hframes h.frames, fun r => Iff.trans ?_ (he r)⟩
  constructor
  · intro hr
    cases hr with
    | multinames hmany => omega
    | frame _ hf hsound hr => exact ⟨_, _, hf, hsound, hr⟩
    | base _ h | constants _ h | code _ h => exact absurd h hframes
  · rintro ⟨n, f, hf, hsound, hr⟩
    exact .frame hfit hf hsound hr

end Image

theorem MultinameTable.load_outcome (i : Interner) (references : List Image.Reference) :
    Loader.Outcome i (references.flatMap Image.Reference.texts)
      (fun j t => references.length ≤ tableLimit ∧
        Forall₂ (Multiname.Spells j) t.entries.toList references)
      (fun _ e => tableLimit < references.length ∧ e = .tableTooLarge references.length)
      ((load references).run i) := by
  rw [← append_nil (references.flatMap Image.Reference.texts)]
  refine (interns_internReference.mapM.run i references).bind fun entries hentries => ?_
  have hlength : entries.length = references.length := hentries.length_eq
  change Loader.Outcome _ [] _ _ (ofEntries entries.toArray, _)
  unfold ofEntries
  by_cases hfit : references.length ≤ tableLimit
  · simp only [size_toArray, hlength, hfit, dif_pos]
    exact .ok (.nil _) ⟨trivial, hentries⟩
  · simp only [size_toArray, hlength, hfit, dif_neg, not_false_eq_true]
    exact .refused nil_prefix (.nil _) ⟨Nat.lt_of_not_le hfit, rfl⟩

namespace CodeUnit

theorem ofDraft_outcome {d : Draft} {image : Image} (h : d.Spells image)
    (hfit : image.multinames.length ≤ tableLimit) (hframes : image.FramesSound) :
    Loader.Outcome d.interner [] image.AcceptedAs image.RefusedWith (ofDraft d, d.interner) := by
  have hsound := h.fault?_eq_none_iff hfit hframes
  have hrefused (r : LoadError.Report) :
      (∃ e, d.fault? = some e ∧ e.report d.interner = r) ↔ image.Refused r :=
    h.fault?_eq_some_iff hfit hframes
  cases hdraft : ofDraft d with
  | ok u =>
    have hnone := exists_ofDraft_iff.mp ⟨u, hdraft⟩
    obtain rfl := toDraft_of_ofDraft hdraft
    exact .ok (.nil _) ⟨hsound.mp hnone, fun r hr => by simp [← hrefused, hnone] at hr, rfl, h⟩
  | error e =>
    have hsome := ofDraft_eq_error_iff.mp hdraft
    refine .refused nil_prefix (.nil _) ⟨by simp [← hsound, hsome], fun r => ?_⟩
    rw [← hrefused, hsome]
    simp

/-- Loading accepts the image or refuses it, or no name is left for one of its texts. -/
theorem load_outcome (i : Interner) (image : Image) :
    Loader.Outcome i image.texts image.AcceptedAs image.RefusedWith (load i image) := by
  have htexts : image.texts = image.multinames.flatMap Image.Reference.texts ++
      (image.frames.flatMap Image.Frame.texts ++
        (image.constants.flatMap Image.Constant.texts ++ [])) := by
    simp [Image.texts]
  rw [htexts]
  refine ((MultinameTable.load_outcome i image.multinames).imp_refused ?_).bind
    fun multinames ⟨hfit, hmultinames⟩ => ?_
  · rintro j e ⟨hmany, rfl⟩
    exact Image.refusedWith_of_many hmany j
  generalize i.internAll _ = j at hmultinames ⊢
  refine ((loadTemplates_outcome .nil).imp_refused ?_).bind fun templates htemplates => ?_
  · exact fun k e he => Image.refusedWith_of_blamed hfit he
  have hjk := j.le_internAll (image.frames.flatMap Image.Frame.texts)
  generalize j.internAll _ = k at htemplates hjk ⊢
  refine (interns_internConstant.mapM.run k image.constants).bind fun constants hconstants => ?_
  have hkl := k.le_internAll (image.constants.flatMap Image.Constant.texts)
  generalize k.internAll _ = l at hconstants hkl ⊢
  -- the references and the templates are spelled in the later interners too
  have hspells : Draft.Spells
      ⟨l, multinames, templates, constants.toArray, image.base, image.code.toArray⟩ image :=
    { multinames := hmultinames.imp fun _ _ h => interns_internReference.mono (hjk.trans hkl) h
      templates := htemplates.imp fun _ _ h => h.mono hkl
      constants := hconstants
      base := rfl
      code := rfl }
  exact ofDraft_outcome hspells hfit fun n f hf => Arena.sound_of_spells htemplates hf

/-- An interner that is filled by loading never holds more texts than there are names. -/
theorem size_load_le (h : i.size ≤ nameLimit) (image : Image) :
    (load i image).2.size ≤ nameLimit := by
  have hsize := (load_outcome i image).size_le
  rwa [Nat.max_eq_right h] at hsize

/-- Loading stops at a text of the image for which no name is left: with all its texts interned there
would be more texts than names. -/
structure OutOfNames (i : Interner) (image : Image) : Prop where
  error : (load i image).1 = .error (.intern (.overflow (load i image).2.size))
  runsOut : i.RunsOut image.texts (load i image).2
  crowded : nameLimit < (i.internAll image.texts).size

/-- Where no interner holds more texts than there are names, the report is always of so many. -/
theorem OutOfNames.error_eq (h : OutOfNames i image) (hsize : i.size ≤ nameLimit) :
    (load i image).1 = .error (.intern (.overflow nameLimit)) := by
  rw [h.error, Nat.le_antisymm (size_load_le hsize image) h.runsOut.full]

theorem not_outOfNames_of_few (hfew : i.size + image.texts.length ≤ nameLimit) :
    ¬OutOfNames i image := by
  intro hout
  have hcrowded := hout.crowded
  have hsize := i.size_internAll_le_add image.texts
  omega

theorem load_cases (i : Interner) (image : Image) :
    OutOfNames i image ∨
      (∃ u, (load i image).1 = .ok u ∧ image.AcceptedAs (load i image).2 u) ∨
        ∃ e, (load i image).1 = .error e ∧ image.RefusedWith (load i image).2 e := by
  have houtcome := load_outcome i image
  generalize hload : load i image = outcome at houtcome
  cases houtcome with
  | ok _ hu => exact .inr (.inl ⟨_, rfl, hu⟩)
  | full hout =>
    exact .inl ⟨by rw [hload], by rwa [hload],
      Nat.lt_of_le_of_lt (Nat.le_max_right ..) hout.size_lt⟩
  | refused _ _ he => exact .inr (.inr ⟨_, rfl, he⟩)

theorem acceptedAs_of_load (h : (load i image).1 = .ok u) :
    image.AcceptedAs (load i image).2 u := by
  rcases load_cases i image with hout | ⟨v, hv, haccepted⟩ | ⟨e, he, -⟩
  · cases h.symm.trans hout.error
  · cases h.symm.trans hv
    exact haccepted
  · cases h.symm.trans he

theorem code_of_load (h : (load i image).1 = .ok u) : u.code = image.code.toArray :=
  (acceptedAs_of_load h).spells.code

theorem program_of_load (h : (load i image).1 = .ok u) (hcode : image.code = assemble p) :
    u.program = p := by
  rw [program, code_of_load h, hcode, decode_assemble, map_snd_layout]

/-- The sound images are loaded, as far as there are names for their texts. -/
theorem exists_load_iff (i : Interner) (image : Image) :
    (∃ u, (load i image).1 = .ok u) ↔ image.Sound ∧ i.Fits image.texts := by
  have houtcome := load_outcome i image
  generalize load i image = outcome at houtcome ⊢
  cases houtcome with
  | ok hfits hu => simp [hu.sound, hfits]
  | full hout => simp [hout.not_fits]
  | refused _ _ he => simp [he.not_sound]

theorem exists_load_of_sound (h : image.Sound) (hfew : i.size + image.texts.length ≤ nameLimit) :
    ∃ u, (load i image).1 = .ok u := by
  have hsize := i.size_internAll_le_add image.texts
  exact (exists_load_iff i image).mpr ⟨h, by rw [Fits]; omega⟩

/-- Unless more texts come together than there are names, loading accepts the sound images, and of
any other one it reports the first thing that is wrong with it, whatever has been interned before. -/
theorem load_decides (i : Interner) (image : Image) :
    OutOfNames i image ∨
      ((∃ u, (load i image).1 = .ok u) ↔ image.Sound) ∧
        ∀ r, (∃ e, (load i image).1 = .error e ∧ e.report (load i image).2 = r) ↔
          image.Refused r := by
  rcases load_cases i image with hout | ⟨u, hu, haccepted⟩ | ⟨e, he, hrefused⟩
  · exact .inl hout
  · have hnot (r : LoadError.Report) := haccepted.not_refused r
    exact .inr ⟨by simp [hu, haccepted.sound], fun r => by simp [hu, hnot]⟩
  · exact .inr ⟨by simp [he, hrefused.not_sound], fun r => by simp [he, hrefused.refused_iff]⟩

end CodeUnit

end ScopeMachine
