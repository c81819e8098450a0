import ScopeMachine.Proofs.Code.Lines

/-!
# Listings, line by line

A listing that is split at its line breaks gives the instructions back one by one, unless a name in a
comment has a line break of its own (`CodeUnit.listed_by_line_iff`): names are written as they are, so
such a name goes on in the next line. Constants are quoted and do no harm.
-/

namespace ScopeMachine

open Instruction Interner List Text

/-! ## Splitting -/

theorem length_splitOn (sep : Char) (text : List Char) :
    (text.splitOn sep).length = text.count sep + 1 := by
  induction text with
  | nil => rfl
  | cons c text ih =>
    rw [splitOn_eq_splitOnP] at ih ⊢
    rw [splitOnP_cons_eq_if_modifyHead, count_cons]
    split <;> simp_all

/-- Lines that end with a line break are what their text is split into, with nothing behind the last. -/
theorem splitOn_lines {lines : List String} (hlines : ∀ l ∈ lines, Unbroken l) :
    (lines.flatMap fun l => l.toList ++ ['\n']).splitOn '\n' = lines.map String.toList ++ [[]] := by
  induction lines with
  | nil => rfl
  | cons l lines ih =>
    obtain ⟨hl, hlater⟩ := forall_mem_cons.mp hlines
    rw [flatMap_cons, append_assoc, singleton_append, splitOn_append_cons_self_of_not_mem hl,
      ih hlater, map_cons, cons_append]

theorem length_le_count_lines (lines : List String) :
    lines.length ≤ (lines.flatMap fun l => l.toList ++ ['\n']).count '\n' := by
  induction lines with
  | nil => simp
  | cons l lines ih =>
    simp only [flatMap_cons, count_append, count_singleton_self, length_cons]
    omega

/-- If a text of lines has no more line breaks than lines, there is none within a line. -/
theorem unbroken_of_count_lines {lines : List String}
    (h : (lines.flatMap fun l => l.toList ++ ['\n']).count '\n' ≤ lines.length) :
    ∀ l ∈ lines, Unbroken l := by
  induction lines with
  | nil => simp
  | cons l lines ih =>
    have hlater := length_le_count_lines lines
    simp only [flatMap_cons, count_append, count_singleton_self, length_cons] at h
    exact forall_mem_cons.mpr ⟨count_eq_zero.mp (by omega), ih (by omega)⟩

/-! ## Lines of a listing -/

/-- Split at line breaks, the listing is these lines and nothing behind the last of them. There is one
for each instruction that is decoded, with its offset and its text in front, and both are read back from
the line. -/
structure CodeUnit.ListedByLine (u : CodeUnit) (lines : List String) : Prop where
  split : u.listing.toList.splitOn '\n' = lines.map String.toList ++ [[]]
  headings : Forall₂ (fun line (offset, c) => (heading offset c).toList <+: line.toList) lines
    (decode u.code).instructions
  readBack : lines.map (fun line => ofHeading? line.toList) = (decode u.code).instructions.map some

theorem Instruction.unbroken_toText (c : Instruction) : Unbroken c.toText := by
  have hmnemonic : Unbroken c.opcode.mnemonic := by cases c.opcode <;> decide
  unfold toText
  split
  · exact hmnemonic
  · simp only [unbroken_append]
    exact ⟨⟨hmnemonic, by decide⟩, unbroken_nat _⟩

theorem Instruction.unbroken_heading (offset : Nat) (c : Instruction) : Unbroken (heading offset c) := by
  simp only [heading, unbroken_append]
  exact ⟨⟨unbroken_alignRight (unbroken_nat offset) 6, by decide⟩, c.unbroken_toText⟩

namespace Image

variable {image : Image}

theorem unbroken_line_iff {offset : Nat} {c : Instruction} :
    Unbroken (image.line offset c) ↔ ∀ t, image.comment? c = some t → Unbroken t := by
  have hmark : Unbroken "  ; " := by decide
  unfold line
  cases image.comment? c <;> simp [unbroken_heading, hmark]

theorem unbroken_lines_iff {offset : Nat} {p : List Instruction} :
    (∀ l ∈ image.lines offset p, Unbroken l) ↔
      ∀ c ∈ p, ∀ t, image.comment? c = some t → Unbroken t := by
  conv_rhs => rw [← map_snd_layout offset p]
  simp only [lines, forall_mem_map, unbroken_line_iff]

end Image

namespace CodeUnit

variable {u : CodeUnit} {image : Image}

theorem listedByLine_lines (h : u.toDraft.Spells image)
    (hunbroken : ∀ l ∈ image.lines 0 u.program, Unbroken l) :
    u.ListedByLine (image.lines 0 u.program) where
  split := by
    rw [listing_of_spells h]
    exact splitOn_lines hunbroken
  headings := by
    rw [instructions_decode, Image.lines, forall₂_map_left_iff, forall₂_same]
    exact fun x _ => Image.heading_prefix_line x.1 x.2
  readBack := by
    rw [instructions_decode, Image.lines, map_map]
    refine map_congr_left fun x _ => ?_
    simpa using @Image.ofHeading?_line image x.1 x.2 [] (by simp)

/-- There are as many lines as instructions and as many line breaks as lines, so none is left for the
comments. -/
theorem ListedByLine.unbroken (hlisted : u.ListedByLine lines) (h : u.toDraft.Spells image) :
    ∀ l ∈ image.lines 0 u.program, Unbroken l := by
  have hlength : lines.length = (image.lines 0 u.program).length := by
    rw [hlisted.headings.length_eq, instructions_decode, Image.lines, length_map]
  have hcount := congrArg length hlisted.split
  rw [length_splitOn, listing_of_spells h, length_append, length_map, hlength] at hcount
  exact unbroken_of_count_lines (Nat.le_of_eq (Nat.succ.inj hcount))

theorem exists_listedByLine_iff (h : u.toDraft.Spells image) :
    (∃ lines, u.ListedByLine lines) ↔
      ∀ c ∈ u.program, ∀ t, image.comment? c = some t → Unbroken t := by
  rw [← Image.unbroken_lines_iff]
  constructor
  · rintro ⟨lines, hlisted⟩
    exact hlisted.unbroken h
  · exact fun hunbroken => ⟨_, listedByLine_lines h hunbroken⟩

/-- The listing of a unit has a line for each instruction, from which the instruction is read back,
exactly if no name or namespace that an instruction refers to has a line break. Names that no
instruction refers to may have any characters, and so may all constants. -/
theorem listed_by_line_iff (i : Interner) (image : Image) (h : (load i image).1 = .ok u) :
    (∃ lines, u.ListedByLine lines) ↔ ∀ c ∈ u.program, ∀ t ∈ image.namesOf c, Unbroken t := by
  have hspells := (acceptedAs_of_load h).spells
  rw [exists_listedByLine_iff hspells]
  exact forall₂_congr fun c _ => image.unbroken_comment_iff c

/-- A name with a line break that is not referred to, and a constant with one that is. -/
theorem listed_with_a_line_break_in_a_constant :
    let image : Image := ⟨[⟨"a\nb", []⟩, ⟨"c", []⟩], [⟨none, []⟩], [.str "d\ne"], 0,
      assemble [.constant 0, .lexicalRead 1]⟩
    ∃ u lines, (load .new image).1 = .ok u ∧ u.ListedByLine lines := by
  intro image
  have hsound : image.Sound := by
    refine Image.sound_of_empty_frame (by decide) (by decide) fun c hc n hn => ?_
    rcases mem_pair.mp hc with rfl | rfl
    all_goals
      cases hn
      decide
  obtain ⟨u, hu⟩ := exists_load_of_sound hsound (i := .new) (by decide)
  have hprogram : u.program = [.constant 0, .lexicalRead 1] := program_of_load hu rfl
  obtain ⟨lines, hlines⟩ := (listed_by_line_iff .new image hu).mpr (by rw [hprogram]; decide)
  exact ⟨u, lines, hu, hlines⟩

/-- The name goes on in a line of its own: a program of one instruction has a listing of two lines. -/
theorem line_break_in_a_name_splits_a_line :
    let image : Image := ⟨[⟨"a\nb", []⟩], [⟨none, []⟩], [], 0, assemble [.lexicalRead 0]⟩
    ∃ u, (load .new image).1 = .ok u ∧ u.program = [.lexicalRead 0] ∧
      u.listing = "     0  lexical_read 0  ; a\nb\n" ∧ ¬∃ lines, u.ListedByLine lines := by
  intro image
  have hsound : image.Sound := by
    refine Image.sound_of_empty_frame (by decide) (by decide) fun c hc n hn => ?_
    obtain rfl := mem_singleton.mp hc
    cases hn
    decide
  obtain ⟨u, hu⟩ := exists_load_of_sound hsound (i := .new) (by decide)
  have hprogram : u.program = [.lexicalRead 0] := program_of_load hu rfl
  have hspells := (acceptedAs_of_load hu).spells
  refine ⟨u, hu, hprogram, ?_, fun hlisted => ?_⟩
  · rw [← String.toList_inj, listing_of_spells hspells, hprogram]
    decide
  · have hname := (exists_listedByLine_iff hspells).mp hlisted (.lexicalRead 0) (by simp [hprogram])
    exact absurd (hname "a\nb" rfl) (by decide)

end CodeUnit

end ScopeMachine
