import ScopeMachine.Proofs.Code.Comments

/-!
# Lines of listings

The line of an instruction begins with its offset and its text, which are read back whatever comment
follows (`Image.ofHeading?_line`), for the mnemonic ends at a blank or at the end of the line and
the index before what is no digit. So a listing tells the code of its unit, from one line to the next
(`CodeUnit.listings_tell_code_apart`).
-/

namespace ScopeMachine

open Interner List Text

/-! ## Reading a line -/

namespace Opcode

def all : List Opcode :=
  [constant, pop, multiname, dotRead, lexicalRead, lexicalWrite, lexicalAssign, pushFrame, popFrame,
    ret]

def ofMnemonic? (word : List Char) : Option Opcode :=
  all.find? (·.mnemonic.toList == word)

theorem ofMnemonic?_mnemonic (op : Opcode) : ofMnemonic? op.mnemonic.toList = some op := by
  cases op <;> decide

end Opcode

namespace Instruction

/-- Whether the character belongs to a word: it ends neither the word nor the line. -/
def isWordChar (c : Char) : Bool := c != ' ' && c != '\n'

/-- The offset and the instruction that stand at the front of a text: a number behind blanks, the word
behind further blanks, and the number behind the blank that ends the word. -/
def ofHeading? (text : List Char) : Option (Nat × Instruction) :=
  let text := text.dropWhile (· == ' ')
  let offset := text.takeWhile Char.isDigit
  let text := (text.dropWhile Char.isDigit).dropWhile (· == ' ')
  let word := text.takeWhile isWordChar
  let index := ((text.dropWhile isWordChar).drop 1).takeWhile Char.isDigit
  (Opcode.ofMnemonic? word).map fun op =>
    (Nat.ofDigitChars 10 offset 0, ofOpcode op (UInt16.ofNat (Nat.ofDigitChars 10 index 0)))

/-- What every line has in front: the offset at the right end of six columns, two blanks, and the
instruction. -/
def heading (offset : Nat) (i : Instruction) : String :=
  alignRight 6 (toString offset) ++ "  " ++ i.toText

theorem cut_append {p : Char → Bool} {cs rest : List Char} (hcs : ∀ c ∈ cs, p c = true)
    (hrest : ∀ c ∈ rest.head?, p c = false) :
    (cs ++ rest).takeWhile p = cs ∧ (cs ++ rest).dropWhile p = rest := by
  rw [takeWhile_append_of_pos hcs, dropWhile_append_of_pos hcs]
  cases rest with
  | nil => simp
  | cons c rest => simp [hrest c rfl]

theorem cut_digits (n : Nat) {rest : List Char} (hrest : ∀ c ∈ rest.head?, c.isDigit = false) :
    (Nat.toDigits 10 n ++ rest).takeWhile Char.isDigit = Nat.toDigits 10 n ∧
      (Nat.toDigits 10 n ++ rest).dropWhile Char.isDigit = rest :=
  cut_append (fun _ hc => Nat.isDigit_of_mem_toDigits (by decide) (by decide) hc) hrest

theorem cut_mnemonic (op : Opcode) {rest : List Char} (hrest : ∀ c ∈ rest.head?, isWordChar c = false) :
    (op.mnemonic.toList ++ rest).takeWhile isWordChar = op.mnemonic.toList ∧
      (op.mnemonic.toList ++ rest).dropWhile isWordChar = rest := by
  have hword : op.mnemonic.toList.all isWordChar = true := by cases op <;> decide
  exact cut_append (all_eq_true.mp hword) hrest

theorem dropWhile_blanks (k : Nat) {rest : List Char} (hrest : ∀ c ∈ rest.head?, (c == ' ') = false) :
    (replicate k ' ' ++ rest).dropWhile (· == ' ') = rest := by
  refine (cut_append (fun c hc => ?_) hrest).2
  rw [eq_of_mem_replicate hc]
  rfl

theorem head?_toDigits_append (n : Nat) (rest : List Char) :
    ∀ c ∈ (Nat.toDigits 10 n ++ rest).head?, (c == ' ') = false := by
  intro c hc
  rw [head?_append_of_ne_nil _ Nat.toDigits_ne_nil] at hc
  have hdigit : c.isDigit = true :=
    Nat.isDigit_of_mem_toDigits (by decide) (by decide) (mem_of_mem_head? hc)
  rw [beq_eq_false_iff_ne]
  rintro rfl
  cases hdigit

theorem head?_mnemonic_append (op : Opcode) (rest : List Char) :
    ∀ c ∈ (op.mnemonic.toList ++ rest).head?, (c == ' ') = false := by
  cases op <;> simp [Opcode.mnemonic]

theorem ofOpcode_of_index?_eq_none {i : Instruction} (h : i.index? = none) (n : UInt16) :
    ofOpcode i.opcode n = i := by
  cases i with
  | pop | popFrame | ret => rfl
  | _ => cases h

theorem ofHeading?_offset (blanks offset : Nat) {text : List Char}
    (htext : ∀ c ∈ text.head?, (c == ' ') = false) :
    ofHeading? (replicate blanks ' ' ++ (Nat.toDigits 10 offset ++ ' ' :: ' ' :: text)) =
      (Opcode.ofMnemonic? (text.takeWhile isWordChar)).map fun op => (offset,
        ofOpcode op (UInt16.ofNat (Nat.ofDigitChars 10
          (((text.dropWhile isWordChar).drop 1).takeWhile Char.isDigit) 0))) := by
  have hcolumn := dropWhile_blanks blanks (head?_toDigits_append offset (' ' :: ' ' :: text))
  have hdigits := cut_digits offset (show ∀ c ∈ (' ' :: ' ' :: text).head?, c.isDigit = false by simp)
  have hgap : (' ' :: ' ' :: text).dropWhile (· == ' ') = text := dropWhile_blanks 2 htext
  simp only [ofHeading?, hcolumn, hdigits, hgap, Nat.ofDigitChars_ten_toDigits]

/-- A heading is read back, unless a character follows that would go on with the word or the
number at its end. -/
theorem ofHeading?_heading (offset : Nat) (i : Instruction) {rest : List Char}
    (hrest : ∀ c ∈ rest.head?, c = ' ' ∨ c = '\n') :
    ofHeading? ((heading offset i).toList ++ rest) = some (offset, i) := by
  have hcolumns (text : List Char) : (alignRight 6 (toString offset) ++ "  ").toList ++ text =
      replicate (6 - (toString offset).length) ' ' ++
        (Nat.toDigits 10 offset ++ ' ' :: ' ' :: text) := by
    simp [alignRight]
  rw [heading, String.toList_append, append_assoc, hcolumns]
  cases hi : i.index? with
  -- without an index the mnemonic ends at what follows, else at the blank in front of the index
  | none =>
    have htext : i.toText.toList = i.opcode.mnemonic.toList := by simp [toText, hi]
    have hcut := cut_mnemonic i.opcode (show ∀ c ∈ rest.head?, isWordChar c = false from
      fun c hc => by rcases hrest c hc with rfl | rfl <;> rfl)
    rw [htext, ofHeading?_offset _ _ (head?_mnemonic_append _ _), hcut.1, Opcode.ofMnemonic?_mnemonic,
      Option.map_some, ofOpcode_of_index?_eq_none hi]
  | some n =>
    have htext : i.toText.toList ++ rest =
        i.opcode.mnemonic.toList ++ (' ' :: (Nat.toDigits 10 n.toNat ++ rest)) := by
      simp [toText, hi]
    have hcut := cut_mnemonic i.opcode
      (show ∀ c ∈ (' ' :: (Nat.toDigits 10 n.toNat ++ rest)).head?, isWordChar c = false by
        simp [isWordChar])
    have hindex := cut_digits n.toNat (show ∀ c ∈ rest.head?, c.isDigit = false from
      fun c hc => by rcases hrest c hc with rfl | rfl <;> rfl)
    have hback := i.ofOpcode_opcode
    rw [hi, Option.getD_some] at hback
    rw [htext, ofHeading?_offset _ _ (head?_mnemonic_append _ _), hcut.1, hcut.2, drop_succ_cons,
      drop_zero, hindex.1, Opcode.ofMnemonic?_mnemonic, Option.map_some,
      Nat.ofDigitChars_ten_toDigits, UInt16.ofNat_toNat, hback]

end Instruction

/-! ## The listing of a program -/

open Instruction

namespace Image

variable {image : Image}

def line (image : Image) (offset : Nat) (c : Instruction) : String :=
  match image.comment? c with
  | none => heading offset c
  | some comment => heading offset c ++ "  ; " ++ comment

def lines (image : Image) (offset : Nat) (p : List Instruction) : List String :=
  (layout offset p).map fun (a, c) => image.line a c

def listingFrom (image : Image) (offset : Nat) (p : List Instruction) : List Char :=
  (image.lines offset p).flatMap fun line => line.toList ++ ['\n']

theorem listingFrom_cons (offset : Nat) (c : Instruction) (p : List Instruction) :
    image.listingFrom offset (c :: p) =
      (image.line offset c).toList ++ '\n' :: image.listingFrom (offset + c.width) p := by
  simp [listingFrom, lines, layout]

theorem comment?_with_code (image : Image) (code : List UInt8) (c : Instruction) :
    ({ image with code } : Image).comment? c = image.comment? c := by
  cases c <;> rfl

theorem heading_prefix_line (offset : Nat) (c : Instruction) :
    (heading offset c).toList <+: (image.line offset c).toList := by
  unfold line
  split
  · exact prefix_rfl
  · simp [append_assoc]

/-- Offset and instruction are read back from the front of a line, whatever comment it has. -/
theorem ofHeading?_line (offset : Nat) (c : Instruction) {rest : List Char}
    (hrest : ∀ d ∈ rest.head?, d = '\n') :
    ofHeading? ((image.line offset c).toList ++ rest) = some (offset, c) := by
  unfold line
  split
  · exact ofHeading?_heading offset c fun d hd => .inr (hrest d hd)
  · simp only [String.toList_append, append_assoc]
    exact ofHeading?_heading offset c (by simp)

/-- A listing is told apart at the first line that differs: equal texts have the same instruction in
front, so the same line, and go on equally behind it. -/
theorem listingFrom_injective (image : Image) (offset : Nat) :
    Function.Injective (image.listingFrom offset) := by
  intro p q h
  induction p generalizing offset q with
  | nil =>
    cases q with
    | nil => rfl
    | cons d q => simp [listingFrom, lines, layout] at h
  | cons c p ih =>
    cases q with
    | nil => simp [listingFrom, lines, layout] at h
    | cons d q =>
      rw [listingFrom_cons, listingFrom_cons] at h
      have hheading := congrArg ofHeading? h
      rw [ofHeading?_line _ _ (by simp), ofHeading?_line _ _ (by simp)] at hheading
      obtain rfl : c = d := congrArg Prod.snd (Option.some.inj hheading)
      have hback := (cons.inj (append_cancel_left h)).2
      rw [ih _ hback]

end Image

namespace CodeUnit

variable {u v : CodeUnit} {image : Image}

theorem line_of_spells (h : u.toDraft.Spells image) (offset : Nat) (c : Instruction) :
    u.line offset c = image.line offset c ++ "\n" := by
  unfold line Image.line heading
  rw [comment?_of_spells h]
  cases image.comment? c <;> simp [String.append_assoc]

theorem listing_of_spells (h : u.toDraft.Spells image) :
    u.listing.toList = image.listingFrom 0 u.program := by
  simp [listing, instructions_decode, Image.listingFrom, Image.lines, line_of_spells h, flatMap_map]

theorem listing_of_load {code : List UInt8} (h : (load i { image with code }).1 = .ok u) :
    u.listing.toList = image.listingFrom 0 u.program := by
  rw [listing_of_spells (acceptedAs_of_load h).spells]
  simp only [Image.listingFrom, Image.lines, Image.line, Image.comment?_with_code]

theorem code_eq_assemble (u : CodeUnit) : u.code = (assemble u.program).toArray := by
  obtain ⟨back, hcode⟩ := Reads.bytes [] u.code.toList (by simpa using u.reads)
  have hlength := congrArg List.length hcode
  rw [length_append, length_assemble, span_program, Array.length_toList] at hlength
  obtain rfl : back = [] := eq_nil_of_length_eq_zero (by omega)
  rw [append_nil] at hcode
  rw [← hcode]

/-- The units of two images that differ in their code only have the same listing exactly if they have
the same code. The interners may hold anything and the names any characters, even text that looks like
further lines. -/
theorem listings_tell_code_apart (image : Image) (a b : List UInt8) (i j : Interner)
    (hu : (load i { image with code := a }).1 = .ok u)
    (hv : (load j { image with code := b }).1 = .ok v) :
    u.listing = v.listing ↔ u.code = v.code := by
  rw [← String.toList_inj, listing_of_load hu, listing_of_load hv,
    (image.listingFrom_injective 0).eq_iff]
  constructor
  · intro h
    rw [u.code_eq_assemble, h, ← v.code_eq_assemble]
  · intro h
    rw [program, h, ← program]

/-- The name goes on with the line that a discard behind the reference has. -/
theorem line_in_a_name_is_no_line :
    let image (p : List Instruction) : Image :=
      ⟨[⟨"x\n     3  pop", []⟩], [⟨none, []⟩], [], 0, assemble p⟩
    ∃ u v, (load .new (image [.multiname 0])).1 = .ok u ∧
      (load .new (image [.multiname 0, .pop])).1 = .ok v ∧ u.listing ≠ v.listing := by
  intro image
  have hload (p : List Instruction) (hp : ∀ c ∈ p, c = .multiname 0 ∨ c = .pop) :
      ∃ u, (load .new (image p)).1 = .ok u := by
    have hsound : (image p).Sound := by
      refine Image.sound_of_empty_frame (by decide) (by decide) fun c hc n hn => ?_
      rcases hp c hc with rfl | rfl
      · cases hn
        exact Nat.zero_lt_one
      · cases hn
    exact exists_load_of_sound hsound (by simp [image, Image.texts]; decide)
  obtain ⟨u, hu⟩ := hload [.multiname 0] (by decide)
  obtain ⟨v, hv⟩ := hload [.multiname 0, .pop] (by decide)
  refine ⟨u, v, hu, hv, fun h => ?_⟩
  have hcode := (listings_tell_code_apart (image []) _ _ .new .new hu hv).mp h
  rw [code_of_load hu, code_of_load hv] at hcode
  cases hcode

end CodeUnit

end ScopeMachine
