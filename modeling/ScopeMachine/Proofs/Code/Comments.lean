import ScopeMachine.CodeUnit.Listing
import ScopeMachine.Proofs.Code.ReadBack
import ScopeMachine.Proofs.Text.Unbroken

/-!
# What a listing says of an index

The comment on an instruction is told by the image alone, whatever the names of its texts
(`CodeUnit.comment?_of_spells`). References and declared names stand in it as they are, and constants in a
written form of their own: a comment has a line break exactly if one of the names in it has one
(`Image.unbroken_comment_iff`).
-/

namespace ScopeMachine

open Interner List Text

namespace Image

def Reference.toText (r : Reference) : String :=
  if r.namespaces.eraseDups.isEmpty then r.name
  else "\x7b" ++ ",".intercalate r.namespaces.eraseDups ++ "\x7d::" ++ r.name

def Slot.toText (s : Slot) : String :=
  match s.qualifier with
  | none => s.name
  | some ns => ns ++ "::" ++ s.name

def Frame.toText (f : Frame) : String :=
  "[" ++ ", ".intercalate (f.slots.map Slot.toText) ++ "]"

def Constant.toText : Constant → String
  | undefined => "undefined"
  | null => "null"
  | bool b => if b then "true" else "false"
  | int n => toString n.toInt
  | float x => x.toText
  | str s => Quoted.encode s

def comment? (image : Image) : Instruction → Option String
  | .constant n => image.constants[n.toNat]?.map Constant.toText
  | .multiname n | .dotRead n | .lexicalRead n | .lexicalWrite n | .lexicalAssign n =>
    image.multinames[n.toNat]?.map Reference.toText
  | .pushFrame n => image.frames[n.toNat]?.map Frame.toText
  | .pop | .popFrame | .ret => none

/-- The names and namespaces in the comment on an instruction. The text of a constant is none. -/
def namesOf (image : Image) : Instruction → List String
  | .multiname n | .dotRead n | .lexicalRead n | .lexicalWrite n | .lexicalAssign n =>
    image.multinames[n.toNat]?.elim [] Reference.texts
  | .pushFrame n => image.frames[n.toNat]?.elim [] Frame.texts
  | .constant _ | .pop | .popFrame | .ret => []

end Image

/-! ## Comments of units -/

theorem Multiname.Spells.toText {m : Multiname} (h : m.Spells i r) : m.toText i = r.toText := by
  have hnamespaces := map_eq_of_forall₂ h.namespaces fun _ _ h => h.text
  have hempty : m.namespaces.isEmpty = r.namespaces.eraseDups.isEmpty := by
    rw [← hnamespaces, isEmpty_map]
  rw [Multiname.toText, Image.Reference.toText, hempty, hnamespaces, h.name.text]

theorem Declaration.Spells.toText {d : Declaration} (h : d.Spells i s) : d.name.toText i = s.toText := by
  have htexts := h.name.texts_eq
  simp only [QualifiedName.texts, Image.Slot.key, Prod.mk.injEq] at htexts
  rw [QualifiedName.toText, Image.Slot.toText, ← htexts.1, ← htexts.2]
  cases d.name.qualifier <;> rfl

theorem Template.Spells.toText {t : Template} (h : t.Spells i f) : t.toText i = f.toText := by
  have hslots : t.slots.map (fun d => d.name.toText i) = f.slots.map Image.Slot.toText :=
    map_eq_of_forall₂ (forall₂_map_right_iff.mpr (h.slots.imp fun _ _ h => h.toText)) fun _ _ h => h
  have hnames : t.names.map (·.toText i) = f.slots.map Image.Slot.toText := by
    rw [Template.names, map_map]
    exact hslots
  rw [Template.toText, Image.Frame.toText, hnames]

theorem Constant.Spells.toText {c : Constant} (h : c.Spells i w) : c.toText i = w.toText := by
  cases h with
  | str h => rw [Constant.toText, h.text, Image.Constant.toText]
  | _ => rfl

theorem getElem?_map_of_forall₂ {R : α → β → Prop} {xs : Array α} {ys : List β} {f : α → γ} {g : β → γ}
    (h : Forall₂ R xs.toList ys) (hfg : ∀ x y, R x y → f x = g y) (n : Nat) :
    xs[n]?.map f = ys[n]?.map g := by
  have hn := forall₂_getElem? h n
  rw [Array.getElem?_toList] at hn
  generalize xs[n]? = o at hn ⊢
  generalize ys[n]? = o' at hn ⊢
  cases hn with
  | none => rfl
  | some hxy => exact congrArg some (hfg _ _ hxy)

theorem CodeUnit.comment?_of_spells {u : CodeUnit} (h : u.toDraft.Spells image) (c : Instruction) :
    u.comment? c = image.comment? c := by
  cases c with
  | pop | popFrame | ret => rfl
  | constant n =>
    rw [Image.comment?, ← getElem?_map_of_forall₂ h.constants fun _ _ h => h.toText, comment?,
      Draft.constant]
    cases u.constants[n.toNat]? <;> rfl
  | pushFrame n =>
    rw [Image.comment?, ← getElem?_map_of_forall₂ h.templates fun _ _ h => h.toText, comment?,
      Arena.get]
    cases u.templates.templates[n.toNat]? <;> rfl
  | multiname n | dotRead n | lexicalRead n | lexicalWrite n | lexicalAssign n =>
    rw [Image.comment?, ← getElem?_map_of_forall₂ h.multinames fun _ _ h => h.toText, comment?,
      MultinameTable.get, MultinameTable.resolve]
    cases u.multinames.entries[n.toNat]? <;> rfl

/-! ## Line breaks in comments -/

namespace Image

theorem Reference.unbroken_toText (r : Reference) :
    Unbroken r.toText ↔ ∀ t ∈ r.texts, Unbroken t := by
  have hbraces : Unbroken "\x7b" ∧ Unbroken "," ∧ Unbroken "\x7d::" := by decide
  unfold Reference.toText Reference.texts
  split
  next hempty =>
    have hnil : r.namespaces = [] := by
      cases hns : r.namespaces with
      | nil => rfl
      | cons ns rest => simp [hns, eraseDups_cons] at hempty
    simp [hnil]
  · simp [unbroken_intercalate hbraces.2.1, hbraces.1, hbraces.2.2, and_comm]

theorem Slot.unbroken_toText (s : Slot) : Unbroken s.toText ↔ ∀ t ∈ s.texts, Unbroken t := by
  have hcolons : Unbroken "::" := by decide
  unfold Slot.toText Slot.texts
  cases s.qualifier <;> simp [hcolons]

theorem Frame.unbroken_toText (f : Frame) : Unbroken f.toText ↔ ∀ t ∈ f.texts, Unbroken t := by
  have hbrackets : Unbroken "[" ∧ Unbroken ", " ∧ Unbroken "]" := by decide
  have hslots : Unbroken f.toText ↔ ∀ s ∈ f.slots, ∀ t ∈ s.texts, Unbroken t := by
    simp [Frame.toText, unbroken_intercalate hbrackets.2.1, hbrackets.1, hbrackets.2.2,
      Slot.unbroken_toText]
  rw [hslots]
  simp only [Frame.texts, mem_flatMap]
  constructor
  · rintro h t ⟨s, hs, ht⟩
    exact h s hs t ht
  · exact fun h s hs t ht => h t ⟨s, hs, ht⟩

theorem Constant.unbroken_toText (c : Constant) : Unbroken c.toText := by
  cases c with
  | undefined | null => decide
  | bool b => cases b <;> decide
  | int n => exact unbroken_int n.toInt
  | float x => exact unbroken_binary64 x
  | str s => exact unbroken_quoted s

/-- A comment is without a line break exactly if all names in it are. -/
theorem unbroken_comment_iff (image : Image) (c : Instruction) :
    (∀ t, image.comment? c = some t → Unbroken t) ↔ ∀ t ∈ image.namesOf c, Unbroken t := by
  cases c with
  | pop | popFrame | ret => simp [comment?, namesOf]
  | constant n =>
    cases hn : image.constants[n.toNat]? <;> simp [comment?, namesOf, hn, Constant.unbroken_toText]
  | pushFrame n =>
    cases hn : image.frames[n.toNat]? <;> simp [comment?, namesOf, hn, Frame.unbroken_toText]
  | multiname n | dotRead n | lexicalRead n | lexicalWrite n | lexicalAssign n =>
    cases hn : image.multinames[n.toNat]? <;>
      simp [comment?, namesOf, hn, Reference.unbroken_toText]

end Image

end ScopeMachine
