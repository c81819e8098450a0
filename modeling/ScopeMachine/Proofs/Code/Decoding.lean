import ScopeMachine.Proofs.Code.Assembly

/-!
# Decoding against encoding

An instruction is decoded exactly where its bytes stand, and what is wrong with bytes that begin
with no instruction is said by `Garbled` without the decoder (`decodeAt_cases`). Hence what a
program reads as is what it assembles to, with the bytes that are left over (`Reads.bytes`).
-/

namespace ScopeMachine

theorem Opcode.toByte_of_ofByte? {op : Opcode} (h : ofByte? b = some op) : op.toByte = b := by
  unfold ofByte? at h
  repeat' split at h
  all_goals simp_all [toByte, eq_comm]

namespace Instruction

theorem encode_ofOpcode (op : Opcode) (n : UInt16) : (ofOpcode op n).encode =
    op.toByte :: if op.hasIndex then Bytes.LittleEndian.encode 2 n.toNat else [] := by
  cases op <;> rfl

/-- The bytes from `offset` on begin with no instruction, for that reason. -/
inductive Garbled (offset : Nat) : List UInt8 → LoadError → Prop
  | opcode : (∀ op : Opcode, op.toByte ≠ b) → Garbled offset (b :: rest) (.unknownOpcode b offset)
  | operand {op : Opcode} : op.hasIndex = true → rest.length < 2 →
      Garbled offset (op.toByte :: rest) (.truncatedOperand (offset + 1) 2 rest.length)

theorem Garbled.decodeAt (h : Garbled front.length rest e) :
    decodeAt (front ++ rest).toArray front.length = .error e := by
  cases h with
  | @opcode b _ hop =>
    have hbyte : Opcode.ofByte? b = none := by
      refine Option.eq_none_iff_forall_ne_some.mpr fun op hb => ?_
      exact hop op (Opcode.toByte_of_ofByte? hb)
    simp [Instruction.decodeAt, hbyte]
  | @operand rest _ hindex hshort =>
    -- none or one byte of the index is there
    rcases rest with _ | ⟨low, _ | ⟨high, back⟩⟩
    · simp [Instruction.decodeAt, hindex]
    · simp [Instruction.decodeAt, hindex]
    · simp only [List.length_cons] at hshort
      omega

theorem decodeAt_cases (front : List UInt8) (hrest : rest ≠ []) :
    (∃ i back, rest = encode i ++ back ∧
        decodeAt (front ++ rest).toArray front.length = .ok i) ∨
      ∃ e, Garbled front.length rest e := by
  obtain ⟨b, rest, rfl⟩ := List.exists_cons_of_ne_nil hrest
  cases hb : Opcode.ofByte? b with
  | none => exact .inr ⟨_, .opcode fun op hop => by simp [← hop] at hb⟩
  | some op =>
    obtain rfl := Opcode.toByte_of_ofByte? hb
    -- it is enough that the opcode has its index behind it, since encodings are decoded
    suffices h : (∃ n back, op.toByte :: rest = (ofOpcode op n).encode ++ back) ∨
        ∃ e, Garbled front.length (op.toByte :: rest) e by
      refine h.imp_left fun ⟨n, back, heq⟩ => ⟨ofOpcode op n, back, heq, ?_⟩
      rw [heq, decodeAt_encode]
    simp only [encode_ofOpcode]
    cases hindex : op.hasIndex with
    | false => exact .inl ⟨0, rest, by simp⟩
    | true =>
      match rest with
      | [] => exact .inr ⟨_, .operand hindex (by simp)⟩
      | [_] => exact .inr ⟨_, .operand hindex (by simp)⟩
      | low :: high :: back =>
        have hbytes : Bytes.LittleEndian.encode 2 (Bytes.LittleEndian.decode [low, high]) =
            [low, high] := Bytes.LittleEndian.encode_decode [low, high]
        have hlt := Bytes.LittleEndian.decode_lt [low, high]
        refine .inl ⟨UInt16.ofNat (Bytes.LittleEndian.decode [low, high]), back, ?_⟩
        rw [UInt16.toNat_ofNat_of_lt' (by simpa using hlt)]
        simp [hbytes]

theorem Reads.bytes (front rest : List UInt8)
    (h : Reads (front ++ rest).toArray front.length p stop) :
    ∃ back, rest = assemble p ++ back := by
  induction p generalizing front rest with
  | nil => exact ⟨rest, rfl⟩
  | cons i p ih =>
    cases h with
    | cons hi h =>
      have hne : rest ≠ [] := by
        rintro rfl
        have hfits := decodeAt_fits hi
        have hpos := i.width_pos
        simp only [List.append_nil, List.size_toArray] at hfits
        omega
      rcases decodeAt_cases front hne with ⟨j, back, rfl, hj⟩ | ⟨e, hgarbled⟩
      · obtain rfl : i = j := Except.ok.inj (hi.symm.trans hj)
        obtain ⟨back, rfl⟩ := ih (front ++ i.encode) back (by simpa using h)
        exact ⟨back, by simp [assemble]⟩
      · cases hi.symm.trans hgarbled.decodeAt

end Instruction

end ScopeMachine
