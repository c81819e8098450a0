import ScopeMachine.Proofs.Bytes.LittleEndian
import ScopeMachine.Proofs.Code.Loading
import ScopeMachine.Proofs.Code.Reading

/-!
# Assembled code

What a program is assembled to is decoded as that program (`decode_assemble`), whatever follows.
-/

namespace ScopeMachine

namespace Opcode

@[simp] theorem ofByte?_toByte (op : Opcode) : ofByte? op.toByte = some op := by
  cases op <;> rfl

end Opcode

namespace Instruction

theorem hasIndex_opcode (i : Instruction) : i.opcode.hasIndex = i.index?.isSome := by
  cases i <;> rfl

theorem ofOpcode_opcode (i : Instruction) : ofOpcode i.opcode (i.index?.getD 0) = i := by
  cases i <;> rfl

@[simp] theorem length_encode (i : Instruction) : i.encode.length = i.width := by
  cases i <;> rfl

@[simp] theorem length_assemble (p : List Instruction) : (assemble p).length = span p := by
  induction p with
  | nil => rfl
  | cons i p ih =>
    rw [assemble, List.flatMap_cons, ← assemble]
    simp [ih]

/-- The bytes of an instruction are decoded as that instruction wherever they stand. -/
theorem decodeAt_encode (front back : List UInt8) (i : Instruction) :
    decodeAt (front ++ (i.encode ++ back)).toArray front.length = .ok i := by
  have hindex := i.hasIndex_opcode
  have hback := i.ofOpcode_opcode
  -- the ten opcodes fall into those with an index and those without
  cases hi : i.index? with
  | none =>
    simp only [hi, Option.isSome_none, Option.getD_none] at hindex hback
    simp [decodeAt, encode, hi, hindex, hback]
  | some n =>
    simp only [hi, Option.isSome_some, Option.getD_some] at hindex hback
    have hn := Bytes.LittleEndian.decode_encode_two n
    simp only [Bytes.LittleEndian.encode] at hn
    simp only [decodeAt, encode, hi, Bytes.LittleEndian.encode]
    simp [-UInt8.ofNat_uInt16ToNat, hindex, hn, hback]

theorem reads_assemble (front : List UInt8) (p : List Instruction) (back : List UInt8) :
    Reads (front ++ (assemble p ++ back)).toArray front.length p (front.length + span p) := by
  -- each instruction read goes over to the front
  induction p generalizing front with
  | nil => exact .nil
  | cons i p ih =>
    have hcode : assemble (i :: p) ++ back = i.encode ++ (assemble p ++ back) := by
      simp [assemble]
    rw [hcode]
    refine .cons (decodeAt_encode ..) ?_
    simpa [Nat.add_assoc] using ih (front ++ i.encode)

/-- Decoding goes over what reads as a program, and on from its end. -/
theorem Reads.decodeFrom (h : Reads code a p b) (done : List (Nat × Instruction)) :
    decodeFrom code a done = decodeFrom code b ((layout a p).reverse ++ done) := by
  induction h generalizing done with
  | nil => simp [layout]
  | @cons a i p b hi h ih =>
    have hin := decodeAt_fits hi
    have hpos := i.width_pos
    rw [Instruction.decodeFrom, if_pos (by omega)]
    simp [hi, ih, layout]

theorem decode_assemble_append (p : List Instruction) (rest : List UInt8) :
    decode (assemble p ++ rest).toArray =
      decodeFrom (assemble p ++ rest).toArray (span p) (layout 0 p).reverse := by
  have hreads := reads_assemble [] p rest
  simp only [List.nil_append, List.length_nil, Nat.zero_add] at hreads
  rw [decode, hreads.decodeFrom, List.append_nil]

theorem decode_assemble (p : List Instruction) :
    decode (assemble p).toArray = ⟨layout 0 p, none⟩ := by
  have happend := decode_assemble_append p []
  rw [List.append_nil] at happend
  rw [happend, decodeFrom, if_neg (by simp), List.reverse_reverse]

end Instruction

open Instruction

/-- A program has a unit over any tables that have what it names; its base scope declares nothing, and
no other scope is named. -/
theorem Draft.exists_templates (interner : Interner) (multinames : MultinameTable)
    (constants : Array Constant) (p : List Instruction) (hsize : constants.size ≤ tableLimit)
    (hp : p.findSome? (indexFault? ⟨interner, multinames, .empty, constants, 0, #[]⟩) = none) :
    ∃ templates : Arena, templates.get 0 = .ok ⟨none, []⟩ ∧
      fault? ⟨interner, multinames, templates, constants, 0, (assemble p).toArray⟩ = none := by
  obtain ⟨templates, -, htemplates⟩ :=
    Arena.push_of_objection? (show Arena.objection? .empty ⟨none, []⟩ = none from rfl)
  have hbase : templates.get 0 = .ok ⟨none, []⟩ := by
    rw [Arena.get, htemplates]
    rfl
  refine ⟨templates, hbase, ?_⟩
  have hindex : (layout 0 p).findSome? (fun x =>
      indexFault? ⟨interner, multinames, templates, constants, 0, (assemble p).toArray⟩ x.2) =
        none := by
    refine List.findSome?_eq_none_iff.mpr ?_
    rintro ⟨a, i⟩ hi
    obtain ⟨front, back, rfl, -⟩ := mem_layout.mp hi
    have hnone := List.findSome?_eq_none_iff.mp hp i (by simp)
    -- an instruction that names a template is at fault over none, so there is no such one
    cases i with
    | pushFrame n => cases hnone
    | _ => exact hnone
  simp only [fault?, codeFault?, decode_assemble, hbase, errorOf?, hindex, Nat.not_lt.mpr hsize,
    if_false]

end ScopeMachine
