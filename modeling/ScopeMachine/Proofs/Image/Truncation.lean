import ScopeMachine.Proofs.Image.Codec

/-!
# Bytes that go on, and bytes that are cut off

`Steady read`: what `read` makes of some bytes, it makes of them also if more bytes follow, unless
it failed for want of bytes. Reading looks at nothing ahead of the field that it reads, and the
first fault ends it, so the readers of all fields are steady, and so is that of images. Hence more
bytes mend a shortage at most, and an image that is cut off anywhere is short of bytes and nothing
else.
-/

namespace ScopeMachine.Image

/-! ## Shortages -/

def Fault.IsIoError (fault : Fault) : Prop := ∃ detail, fault.message = "io error: " ++ detail

theorem Fault.not_isIoError_of_start {fault : Fault} (hmessage : fault.message = start ++ rest)
    (hlong : 2 ≤ start.toList.length) (hstart : start.toList.take 2 ≠ ['i', 'o']) :
    ¬ fault.IsIoError := by
  rintro ⟨detail, hdetail⟩
  have h := congrArg (List.take 2 ∘ String.toList) (hmessage.symm.trans hdetail)
  simp only [Function.comp_apply, String.toList_append, List.take_append_of_le_length hlong] at h
  exact hstart h

theorem Fault.isIoError_iff {fault : Fault} : fault.IsIoError ↔ fault.isShortage = true := by
  cases fault with
  | endOfBytes =>
    have h : endOfBytes.message = "io error: " ++ "unexpected end of file" := by decide
    exact iff_of_true ⟨_, h⟩ rfl
  | endOfText =>
    have h : endOfText.message = "io error: " ++ "" := by decide
    exact iff_of_true ⟨_, h⟩ rfl
  | notUtf8 fault =>
    have h : (notUtf8 fault).message = "string is not valid utf8: " ++ fault.message := rfl
    exact iff_of_false (not_isIoError_of_start h (by decide) (by decide)) Bool.false_ne_true
  | notBool byte =>
    have h : (notBool byte).message =
        "invalid u8 while decoding bool, expected 0 or 1, found " ++ toString byte.toNat := rfl
    exact iff_of_false (not_isIoError_of_start h (by decide) (by decide)) Bool.false_ne_true
  | notTag byte =>
    have h : (notTag byte).message =
        "tag for enum is not valid, found " ++ toString byte.toNat := rfl
    exact iff_of_false (not_isIoError_of_start h (by decide) (by decide)) Bool.false_ne_true
  | notKind kind =>
    have h : (notKind kind).message = "invalid value: integer `" ++
        (toString kind ++ "`, expected variant index 0 <= i < 6") := String.append_assoc
    exact iff_of_false (not_isIoError_of_start h (by decide) (by decide)) Bool.false_ne_true

/-! ## Readers -/

/-- More bytes behind the input are left over by what succeeds, and do not mend a fault that is no
shortage. -/
structure Steady (read : Reader α) : Prop where
  ok : ∀ {input x rest}, read input = .ok (x, rest) →
    ∀ more, read (input ++ more) = .ok (x, rest ++ more)
  error : ∀ {input fault}, read input = .error fault → fault.isShortage = false →
    ∀ more, read (input ++ more) = .error fault

namespace Reader

variable {read : Reader α} {next : α → Reader β} {input : List UInt8}

theorem bind_of_ok (h : read input = .ok (x, rest)) : (read >>= next) input = next x rest := by
  change (read input >>= fun p => next p.1 p.2) = _
  rw [h]
  rfl

theorem bind_of_error (h : read input = .error fault) :
    (read >>= next) input = .error fault := by
  change (read input >>= fun p => next p.1 p.2) = _
  rw [h]
  rfl

theorem steady_pure (x : α) : Steady (pure x : Reader α) where
  ok h more := by
    obtain ⟨rfl, rfl⟩ := pure_eq_ok.mp h
    rfl
  error h := by cases h

theorem steady_throw (fault : Fault) : Steady (throw fault : Reader α) where
  ok h := (throw_eq_ok.mp h).elim
  error h _ more := by
    cases h
    rfl

theorem steady_bind (h : Steady read) (hnext : ∀ x, Steady (next x)) :
    Steady (read >>= next) where
  ok hok more := by
    obtain ⟨x, rest, hx, hy⟩ := bind_eq_ok.mp hok
    rw [bind_of_ok (h.ok hx more)]
    exact (hnext x).ok hy more
  error {input fault} herror hfault more := by
    cases hread : read input with
    | error fault' =>
      rw [bind_of_error hread] at herror
      cases herror
      exact bind_of_error (h.error hread hfault more)
    | ok p =>
      obtain ⟨x, rest⟩ := p
      rw [bind_of_ok hread] at herror
      rw [bind_of_ok (h.ok hread more)]
      exact (hnext x).error herror hfault more

theorem steady_bytes (hshortage : shortage.isShortage = true) (width : Nat) :
    Steady (bytes shortage width) where
  ok h more := by
    obtain ⟨hfront, rfl⟩ := bytes_eq_ok.mp h
    exact bytes_eq_ok.mpr ⟨hfront, List.append_assoc ..⟩
  error {input fault} h hfault := by
    -- too few bytes are the one thing that can be wrong here
    simp only [bytes] at h
    split at h
    · cases h
    · cases h
      cases hshortage.symm.trans hfault

theorem steady_number (width : Nat) : Steady (number width) :=
  steady_bind (steady_bytes rfl width) fun _ => steady_pure _

theorem steady_byte : Steady byte := steady_bind (steady_number 1) fun _ => steady_pure _

theorem steady_index : Steady index := steady_bind (steady_number 2) fun _ => steady_pure _

theorem steady_bool : Steady bool := by
  refine steady_bind steady_byte fun b => ?_
  split
  · exact steady_pure false
  · split
    · exact steady_pure true
    · exact steady_throw _

theorem steady_option (h : Steady read) : Steady (option read) := by
  refine steady_bind steady_byte fun tag => ?_
  split
  · exact steady_pure none
  · split
    · exact steady_bind h fun x => steady_pure (some x)
    · exact steady_throw _

theorem steady_text : Steady text := by
  refine steady_bind (steady_number 8) fun width => steady_bind (steady_bytes rfl width) ?_
  intro encoded
  split
  · exact steady_pure _
  · exact steady_throw _

theorem steady_entries (h : Steady read) (count : Nat) (done : List α) :
    Steady (entries read count done) := by
  induction count generalizing done with
  | zero =>
    constructor
    · intro input xs rest hok more
      cases hok
      rfl
    · intro input fault herror
      cases herror
  | succ count ih =>
    have hstep : entries read (count + 1) done =
        read >>= fun x => entries read count (x :: done) := by
      funext input
      cases hread : read input with
      | error fault => rw [bind_of_error hread, entries, hread]
      | ok p => rw [bind_of_ok hread, entries, hread]
    rw [hstep]
    exact steady_bind h fun x => ih (x :: done)

theorem steady_list (h : Steady read) : Steady (list read) :=
  steady_bind (steady_number 8) fun count => steady_entries h count []

end Reader

open Reader

theorem Reference.steady_read : Steady read :=
  steady_bind steady_text fun _ => steady_bind (steady_list steady_text) fun _ => steady_pure _

theorem Slot.steady_read : Steady read :=
  steady_bind steady_text fun _ => steady_bind (steady_option steady_text) fun _ =>
    steady_bind steady_bool fun _ => steady_bind steady_bool fun _ => steady_pure _

theorem Frame.steady_read : Steady read :=
  steady_bind (steady_option steady_index) fun _ =>
    steady_bind (steady_list Slot.steady_read) fun _ => steady_pure _

theorem Constant.steady_read : Steady read := by
  refine steady_bind (steady_number 4) fun kind => ?_
  -- one case for each kind, in the order of the kinds
  split
  · exact steady_pure _
  · exact steady_pure _
  · exact steady_bind steady_bool fun _ => steady_pure _
  · exact steady_bind (steady_number 8) fun _ => steady_pure _
  · exact steady_bind (steady_number 8) fun _ => steady_pure _
  · exact steady_bind steady_text fun _ => steady_pure _
  · exact steady_throw _

theorem steady_read : Steady read :=
  steady_bind (steady_list Reference.steady_read) fun _ =>
    steady_bind (steady_list Frame.steady_read) fun _ =>
      steady_bind (steady_list Constant.steady_read) fun _ =>
        steady_bind steady_index fun _ =>
          steady_bind (steady_list steady_byte) fun _ => steady_pure _

/-! ## Images -/

theorem decode_of_ok (h : read input = .ok (image, rest)) : decode input = .ok image := by
  have hrun : read.run input = .ok (image, rest) := h
  rw [decode, hrun]

theorem decode_eq_error : decode input = .error fault ↔ read input = .error fault := by
  have hrun : read.run input = read input := rfl
  rw [decode, hrun]
  cases read input with
  | ok p => simp
  | error fault => simp

theorem decode_append_of_ok (h : decode input = .ok image) (more : List UInt8) :
    decode (input ++ more) = .ok image := by
  cases hread : read input with
  | error fault => cases h.symm.trans (decode_eq_error.mpr hread)
  | ok p =>
    obtain ⟨image', rest⟩ := p
    cases h.symm.trans (decode_of_ok hread)
    exact decode_of_ok (steady_read.ok hread more)

theorem decode_append_of_error (h : decode input = .error fault)
    (hfault : fault.isShortage = false) (more : List UInt8) :
    decode (input ++ more) = .error fault :=
  decode_eq_error.mpr (steady_read.error (decode_eq_error.mp h) hfault more)

theorem decode_encode {image : Image} (hfits : image.Fits) : decode image.encode = .ok image :=
  decode_eq_ok_iff.mpr ⟨hfits, [], (List.append_nil _).symm⟩

/-- No part of an image is read as an image, since the whole of it would be read as the same one. -/
theorem decode_prefix_eq_error {image : Image} (hfits : image.Fits)
    (hfront : front <+: image.encode) (hproper : front ≠ image.encode) :
    ∃ fault, decode front = .error fault ∧ fault.isShortage = true := by
  obtain ⟨more, hmore⟩ := hfront
  have hwhole := decode_encode hfits
  cases hdecode : decode front with
  | ok image' =>
    have hsame := decode_append_of_ok hdecode more
    rw [hmore, hwhole] at hsame
    cases hsame
    -- then the whole encoding stands in a part of itself
    obtain ⟨-, rest, hrest⟩ := decode_eq_ok_iff.mp hdecode
    have hlength := List.IsPrefix.length_le ⟨rest, hrest.symm⟩
    exact absurd (List.IsPrefix.eq_of_length_le ⟨more, hmore⟩ hlength) hproper
  | error fault =>
    refine ⟨fault, rfl, ?_⟩
    by_contra hfault
    have hsame := decode_append_of_error hdecode (Bool.eq_false_iff.mpr hfault) more
    rw [hmore, hwhole] at hsame
    cases hsame

/-- More bytes mend nothing but a want of bytes and spoil nothing. Images are read whole, and want
bytes if they are cut off, wherever the cut falls. -/
theorem decode_is_monotone :
    (∀ (input more : List UInt8) (image : Image),
      decode input = .ok image → decode (input ++ more) = .ok image) ∧
    (∀ (input more : List UInt8) (fault : Fault),
      decode input = .error fault → ¬ fault.IsIoError → decode (input ++ more) = .error fault) ∧
    (∀ image : Image, image.Fits → decode image.encode = .ok image ∧
      ∀ front, front <+: image.encode → front ≠ image.encode →
        ∃ fault, decode front = .error fault ∧ fault.IsIoError) := by
  refine ⟨?_, ?_, ?_⟩
  · intro input more image h
    exact decode_append_of_ok h more
  · intro input more fault h hfault
    rw [Fault.isIoError_iff, Bool.not_eq_true] at hfault
    exact decode_append_of_error h hfault more
  · intro image hfits
    refine ⟨decode_encode hfits, ?_⟩
    intro front hfront hproper
    obtain ⟨fault, hdecode, hfault⟩ := decode_prefix_eq_error hfits hfront hproper
    exact ⟨fault, hdecode, Fault.isIoError_iff.mpr hfault⟩

/-- The image of one reference, cut off within its name, and a constant that is no truth value. -/
theorem decode_is_monotone_in_the_middle :
    (∃ (image : Image) (front : List UInt8), image.Fits ∧ front <+: image.encode ∧
      front.length = 17 ∧ ∃ fault, decode front = .error fault ∧ fault.IsIoError) ∧
    ∃ input, decode input = .error (.notBool 9) ∧
      ∀ more, decode (input ++ more) = .error (.notBool 9) := by
  constructor
  · let image : Image := ⟨[⟨"ab", []⟩], [], [], 0, []⟩
    have hfits : image.Fits := by
      constructor <;> simp [image, ListFits, Reference.Fits, TextFits]
      decide
    have hfront : image.encode.take 17 <+: image.encode := List.take_prefix _ _
    have hcut := (decode_is_monotone.2.2 image hfits).2 _ hfront (by decide)
    exact ⟨image, _, hfits, hfront, by decide, hcut⟩
  · -- no references, no frames, one constant of kind 2
    let input : List UInt8 :=
      List.replicate 16 0 ++ [1, 0, 0, 0, 0, 0, 0, 0] ++ [2, 0, 0, 0] ++ [9]
    have hdecode : decode input = .error (.notBool 9) := by decide
    have hfault : ¬ (Fault.notBool 9).IsIoError := by simp [Fault.isIoError_iff, Fault.isShortage]
    exact ⟨input, hdecode, fun more => decode_is_monotone.2.1 _ more _ hdecode hfault⟩

end ScopeMachine.Image
