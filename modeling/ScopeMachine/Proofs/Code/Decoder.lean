import ScopeMachine.Proofs.Code.Decoding

/-!
# Streams, item by item

A `Decoder` gives the items of a stream one at a time as it is asked for them: instructions with
their offsets, then the fault that stops the reading, if any, then nothing more. What it gives is
what `decode` reads at once (`Decoder.answer_ofCode`). Decoding and assembling are inverse to each
other on whole streams, garbled ones included (`decode_inverts_assemble`).
-/

namespace ScopeMachine.Instruction

/-- The instructions, and behind them the fault if there is one. -/
def Stream.items (s : Stream) : List Item :=
  s.instructions.map .ok ++ s.fault.toList.map .error

namespace Decoder

/-- What the decoder answers when it is asked once more after it has been asked that many times. -/
def answer (d : Decoder) : Nat → Option Item
  | 0 => d.next.1
  | n + 1 => d.next.2.answer n

variable {d : Decoder} {code : Array UInt8}

theorem answer_of_done (h : d.failed ∨ d.code.size ≤ d.offset) (n : Nat) : d.answer n = none := by
  have hnext : d.next = (none, d) := if_pos h
  induction n with
  | zero => rw [answer, hnext]
  | succ n ih => rwa [answer, hnext]

theorem next_of_ok {i : Instruction} (hi : decodeAt code a = .ok i) :
    next ⟨code, a, false⟩ = (some (.ok (a, i)), ⟨code, a + i.width, false⟩) := by
  have hfits := decodeAt_fits hi
  have hpos := i.width_pos
  rw [next, if_neg (by simp; omega)]
  simp only [hi]

theorem next_of_error (ha : a < code.size) (he : decodeAt code a = .error e) :
    next ⟨code, a, false⟩ = (some (.error e), ⟨code, a, true⟩) := by
  rw [next, if_neg (by simpa using ha)]
  simp only [he]

/-- Over what reads as a program the decoder gives the program, and from its end what it gives
there. -/
theorem answer_of_reads (h : Reads code a p b) {rest : List Item}
    (hrest : ∀ n, answer ⟨code, b, false⟩ n = rest[n]?) (n : Nat) :
    answer ⟨code, a, false⟩ n = ((layout a p).map .ok ++ rest)[n]? := by
  induction h generalizing n with
  | nil => exact hrest n
  | cons hi h ih =>
    cases n with
    | zero => simp [answer, next_of_ok hi, layout]
    | succ n => simpa [answer, next_of_ok hi, layout] using ih hrest n

/-- Asked again and again, the decoder gives the items of the stream in order, and then nothing. -/
theorem answer_ofCode (code : Array UInt8) (n : Nat) :
    (ofCode code).answer n = (decode code).items[n]? := by
  obtain ⟨p, b, hreads, hinstructions, hend⟩ := decode_reads code
  rw [Stream.items, hinstructions]
  refine answer_of_reads hreads (fun n => ?_) n
  rcases hend with ⟨hfault, rfl⟩ | ⟨e, hfault, hin, he⟩
  · simpa [hfault] using answer_of_done (.inr (Nat.le_refl _)) n
  · cases n with
    | zero => simp [hfault, answer, next_of_error hin he]
    | succ n =>
      rw [answer, next_of_error hin he]
      simpa [hfault] using answer_of_done (.inl rfl) n

end Decoder

theorem decode_cases (code : List UInt8) :
    ∃ p back, code = assemble p ++ back ∧ (decode code.toArray).instructions = layout 0 p ∧
      ((back = [] ∧ (decode code.toArray).fault = none) ∨
        ∃ e, Garbled (span p) back e ∧ (decode code.toArray).fault = some e) := by
  obtain ⟨p, b, hreads, hinstructions, hend⟩ := decode_reads code.toArray
  obtain ⟨back, rfl⟩ := Reads.bytes [] code hreads
  obtain rfl : b = span p := by simpa using hreads.end_eq
  refine ⟨p, back, rfl, hinstructions, ?_⟩
  rcases hend with ⟨hfault, hb⟩ | ⟨e, hfault, hin, he⟩
  · exact .inl ⟨List.length_eq_zero_iff.mp (by simpa using hb), hfault⟩
  · refine .inr ⟨e, ?_, hfault⟩
    have hne : back ≠ [] := by
      rintro rfl
      simp at hin
    rw [← length_assemble p] at he ⊢
    -- what cannot be decoded is garbled, and the decoder names the garbling
    rcases decodeAt_cases (assemble p) hne with ⟨i, _, -, hi⟩ | ⟨e', hgarbled⟩
    · cases he.symm.trans hi
    · obtain rfl : e = e' := Except.error.inj (he.symm.trans hgarbled.decodeAt)
      exact hgarbled

theorem assemble_injective : Function.Injective assemble := by
  intro p q h
  have hp := decode_assemble p
  rw [h, decode_assemble q] at hp
  have hlayout : layout 0 q = layout 0 p := congrArg Stream.instructions hp
  simpa using congrArg (List.map Prod.snd) hlayout.symm

/-- Decoding and assembling are inverse to each other. Asked for one item after the other, a decoder
gives those of `decode`, and then nothing ever. An assembled program is decoded as its instructions,
each at the offset that the widths of those before it add up to, and without a fault. Any bytes are
an assembled program, whose instructions are decoded, and behind it either nothing or bytes that are
garbled there, which is the one fault that is reported. So the bytes that decode without a fault are
the assembled programs, and no two programs share theirs. -/
theorem decode_inverts_assemble :
    (∀ code n, (Decoder.ofCode code).answer n = (decode code).items[n]?) ∧
    (∀ p, (decode (assemble p).toArray).items = (layout 0 p).map .ok) ∧
    (∀ code : List UInt8, ∃ p back, code = assemble p ++ back ∧
      ((back = [] ∧ (decode code.toArray).items = (layout 0 p).map .ok) ∨
        ∃ e, Garbled (span p) back e ∧
          (decode code.toArray).items = (layout 0 p).map .ok ++ [.error e])) ∧
    (∀ code : List UInt8, (decode code.toArray).fault = none ↔ ∃ p, assemble p = code) ∧
    Function.Injective assemble := by
  refine ⟨Decoder.answer_ofCode, fun p => ?_, fun code => ?_, fun code => ⟨fun h => ?_, ?_⟩,
    assemble_injective⟩
  · simp [decode_assemble, Stream.items]
  · obtain ⟨p, back, hcode, hinstructions, hend⟩ := decode_cases code
    refine ⟨p, back, hcode, ?_⟩
    rcases hend with ⟨hback, hfault⟩ | ⟨e, hgarbled, hfault⟩
    · exact .inl ⟨hback, by simp [Stream.items, hinstructions, hfault]⟩
    · exact .inr ⟨e, hgarbled, by simp [Stream.items, hinstructions, hfault]⟩
  · obtain ⟨p, back, rfl, -, ⟨rfl, -⟩ | ⟨e, -, hfault⟩⟩ := decode_cases code
    · exact ⟨p, by simp⟩
    · cases h.symm.trans hfault
  · rintro ⟨p, rfl⟩
    rw [decode_assemble]

end ScopeMachine.Instruction
