import ScopeMachine.CodeUnit.Basic

/-!
# Code as a program

`Reads code a p b`: from `a` to `b` the code is the instructions `p`, one behind the other.
`decode_reads`: decoding finds such a reading from the front of a stream to its end, or to the fault
that stops it. The code of a unit reads as one program to its end (`CodeUnit.reads`), and the index
of each of its instructions is within its table.
-/

namespace ScopeMachine

namespace Instruction

@[simp] theorem opcode_ofOpcode (op : Opcode) (index : UInt16) :
    (ofOpcode op index).opcode = op := by
  cases op <;> rfl

theorem decodeAt_fits {i : Instruction} (h : decodeAt code a = .ok i) :
    a + i.width ≤ code.size := by
  -- the last byte that is looked at is within the code
  unfold decodeAt at h
  split at h
  · cases h
  next hbyte =>
  have hin := (Array.getElem?_eq_some_iff.mp hbyte).1
  split at h
  · cases h
  next op _ =>
  split at h
  next hi =>
    split at h
    · next hhigh =>
      cases h
      have := (Array.getElem?_eq_some_iff.mp hhigh).1
      simp [width, Opcode.operandWidth, hi]
      omega
    · cases h
  next hi =>
    cases h
    simp [width, Opcode.operandWidth, hi]
    omega

def span : List Instruction → Nat
  | [] => 0
  | i :: p => i.width + span p

@[simp] theorem span_nil : span [] = 0 := rfl

@[simp] theorem span_cons (i : Instruction) (p : List Instruction) :
    span (i :: p) = i.width + span p := rfl

@[simp] theorem span_append (p q : List Instruction) : span (p ++ q) = span p + span q := by
  induction p with
  | nil => simp
  | cons i p ih => simp [ih, Nat.add_assoc]

/-- The instructions with their offsets, the first one at `offset`. -/
def layout (offset : Nat) : List Instruction → List (Nat × Instruction)
  | [] => []
  | i :: p => (offset, i) :: layout (offset + i.width) p

@[simp] theorem map_snd_layout (offset : Nat) (p : List Instruction) :
    (layout offset p).map Prod.snd = p := by
  induction p generalizing offset with
  | nil => rfl
  | cons i p ih => simp [layout, ih]

theorem layout_append (offset : Nat) (p q : List Instruction) :
    layout offset (p ++ q) = layout offset p ++ layout (offset + span p) q := by
  induction p generalizing offset with
  | nil => simp [layout]
  | cons i p ih => simp [layout, ih, Nat.add_assoc]

theorem mem_layout {offset a : Nat} {i : Instruction} {p : List Instruction} :
    (a, i) ∈ layout offset p ↔ ∃ front back, p = front ++ i :: back ∧ a = offset + span front := by
  constructor
  · intro h
    induction p generalizing offset with
    | nil => simp [layout] at h
    | cons j p ih =>
      rcases List.mem_cons.mp h with h | h
      · cases h
        exact ⟨[], p, rfl, rfl⟩
      · obtain ⟨front, back, rfl, rfl⟩ := ih h
        exact ⟨j :: front, back, rfl, by simp [Nat.add_assoc]⟩
  · rintro ⟨front, back, rfl, rfl⟩
    simp [layout_append, layout]

/-- The code from the first offset to the second is these instructions, one behind the other. -/
inductive Reads (code : Array UInt8) : Nat → List Instruction → Nat → Prop
  | nil : Reads code a [] a
  | cons : decodeAt code a = .ok i → Reads code (a + i.width) p b → Reads code a (i :: p) b

theorem Reads.end_eq (h : Reads code a p b) : b = a + span p := by
  induction h with
  | nil => rfl
  | cons _ _ ih => rw [ih, span_cons, Nat.add_assoc]

theorem Reads.split (h : Reads code a (p ++ q) b) :
    Reads code a p (a + span p) ∧ Reads code (a + span p) q b := by
  induction p generalizing a with
  | nil => exact ⟨.nil, h⟩
  | cons i p ih =>
    cases h with
    | cons hi h =>
      obtain ⟨hp, hq⟩ := ih h
      rw [span_cons, ← Nat.add_assoc]
      exact ⟨.cons hi hp, hq⟩

theorem Reads.head (h : Reads code a (i :: p) b) : decodeAt code a = .ok i := by
  cases h with
  | cons hi _ => exact hi

/-- Decoding from an offset reads to the end of the code, or to the offset of the fault. -/
theorem decodeFrom_reads {code : Array UInt8} (done : List (Nat × Instruction))
    (ha : a ≤ code.size) :
    ∃ p b, Reads code a p b ∧
      (decodeFrom code a done).instructions = done.reverse ++ layout a p ∧
      (((decodeFrom code a done).fault = none ∧ b = code.size) ∨
        ∃ e, (decodeFrom code a done).fault = some e ∧ b < code.size ∧
          decodeAt code b = .error e) := by
  -- an instruction that is decoded lies within the code, so the next offset is still no further
  fun_induction decodeFrom code a done with
  | case1 a done hin i hi ih =>
    obtain ⟨p, b, hp, heq, hend⟩ := ih (decodeAt_fits hi)
    refine ⟨i :: p, b, .cons hi hp, ?_, hend⟩
    simp [heq, layout]
  | case2 a done hin e he => exact ⟨[], a, .nil, by simp [layout], .inr ⟨e, rfl, hin, he⟩⟩
  | case3 a done hin => exact ⟨[], a, .nil, by simp [layout], .inl ⟨rfl, by omega⟩⟩

theorem decode_reads (code : Array UInt8) :
    ∃ p b, Reads code 0 p b ∧ (decode code).instructions = layout 0 p ∧
      (((decode code).fault = none ∧ b = code.size) ∨
        ∃ e, (decode code).fault = some e ∧ b < code.size ∧ decodeAt code b = .error e) := by
  simpa [decode] using decodeFrom_reads [] (Nat.zero_le code.size)

/-- The offsets between which instructions lie: those that decoding gives and the end of the code. -/
def Boundary (code : Array UInt8) (a : Nat) : Prop :=
  (∃ i, (a, i) ∈ (decode code).instructions) ∨ a = code.size

end Instruction

open Instruction

theorem Draft.errorOf?_eq_none {x : Except LoadError α} : errorOf? x = none ↔ ∃ a, x = .ok a := by
  cases x <;> simp [errorOf?]

namespace CodeUnit

def program (u : CodeUnit) : List Instruction :=
  (decode u.code).instructions.map Prod.snd

theorem exists_base (u : CodeUnit) : ∃ t, u.templates.get u.base = .ok t := by
  have h := u.verified
  unfold Draft.fault? at h
  split at h
  · cases h
  next hbase => exact Draft.errorOf?_eq_none.mp hbase

theorem codeFault?_eq_none (u : CodeUnit) : u.codeFault? = none := by
  have h := u.verified
  unfold Draft.fault? at h
  split at h
  · cases h
  · split at h
    · cases h
    · exact h

theorem decode_fault (u : CodeUnit) : (decode u.code).fault = none := by
  have h := u.codeFault?_eq_none
  simp only [Draft.codeFault?] at h
  split at h
  · cases h
  · exact h

theorem reads (u : CodeUnit) : Reads u.code 0 u.program u.code.size := by
  obtain ⟨p, b, hp, heq, hend⟩ := decode_reads u.code
  rcases hend with ⟨-, rfl⟩ | ⟨e, he, -⟩
  · simpa [program, heq] using hp
  · simp [u.decode_fault] at he

theorem instructions_decode (u : CodeUnit) : (decode u.code).instructions = layout 0 u.program := by
  obtain ⟨p, b, -, heq, -⟩ := decode_reads u.code
  simp [program, heq]

theorem span_program (u : CodeUnit) : span u.program = u.code.size := by
  have := u.reads.end_eq
  omega

theorem boundary_iff (u : CodeUnit) :
    Boundary u.code a ↔ ∃ front back, u.program = front ++ back ∧ a = span front := by
  rw [Boundary, u.instructions_decode, ← u.span_program]
  simp only [mem_layout, Nat.zero_add]
  constructor
  · rintro (⟨i, front, back, hp, rfl⟩ | rfl)
    · exact ⟨front, i :: back, hp, rfl⟩
    · exact ⟨u.program, [], by simp, rfl⟩
  · rintro ⟨front, _ | ⟨i, back⟩, hp, rfl⟩
    · exact .inr (by simp [hp])
    · exact .inl ⟨i, front, back, hp, rfl⟩

theorem indexFault?_eq_none (u : CodeUnit) (hi : i ∈ u.program) : u.indexFault? i = none := by
  have h := u.codeFault?_eq_none
  simp only [Draft.codeFault?] at h
  split at h
  · cases h
  next hnone =>
  obtain ⟨⟨a, j⟩, hmem, rfl⟩ := List.mem_map.mp hi
  exact List.findSome?_eq_none_iff.mp hnone (a, j) hmem

end CodeUnit

end ScopeMachine
