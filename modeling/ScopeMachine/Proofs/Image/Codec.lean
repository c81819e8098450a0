import Mathlib.Data.Set.Function
import ScopeMachine.Image.Decode
import ScopeMachine.Image.Encode
import ScopeMachine.Proofs.Bytes.LittleEndian

/-!
# Bytes are images in one way only

`Inverts read P encode`: at the front of any bytes, `read` finds a value exactly if it satisfies `P`
and its encoding stands there. Every field of an image is read by an inverse of what writes it, and
so is the image itself. There is no slack, neither in what is read nor in what is written.
-/

namespace ScopeMachine.Image

open Bytes

/-! ## Readers -/

def Inverts (read : Reader α) (P : α → Prop) (encode : α → List UInt8) : Prop :=
  ∀ input x rest, read input = .ok (x, rest) ↔ P x ∧ input = encode x ++ rest

def TextFits (s : String) : Prop := s.utf8ByteSize < 2 ^ 64

def ListFits (P : α → Prop) (xs : List α) : Prop := xs.length < 2 ^ 64 ∧ ∀ x ∈ xs, P x

namespace Reader

variable {input rest last : List UInt8}

@[simp] theorem bind_eq_ok {read : Reader α} {next : α → Reader β} :
    (read >>= next) input = .ok (y, last) ↔
      ∃ x rest, read input = .ok (x, rest) ∧ next x rest = .ok (y, last) := by
  change (read input >>= fun p => next p.1 p.2) = _ ↔ _
  cases read input with
  | error fault => simp [bind, Except.bind]
  | ok p => simp [bind, Except.bind, ← Prod.exists']

@[simp] theorem pure_eq_ok {x y : α} :
    (pure x : Reader α) input = .ok (y, rest) ↔ x = y ∧ input = rest := by
  change Except.ok (x, input) = _ ↔ _
  simp

@[simp] theorem throw_eq_ok {x : α} : (throw fault : Reader α) input = .ok (x, rest) ↔ False := by
  change Except.error fault = _ ↔ _
  simp

@[simp] theorem bytes_eq_ok :
    bytes shortage width input = .ok (front, rest) ↔ front.length = width ∧ input = front ++ rest := by
  simp only [bytes, List.splitAt_eq, List.length_take]
  split
  next henough =>
    simp only [Except.ok.injEq, Prod.mk.injEq]
    constructor
    · rintro ⟨rfl, rfl⟩
      simpa using henough
    · rintro ⟨rfl, rfl⟩
      simp
  next hshort =>
    simp only [reduceCtorEq, false_iff, not_and]
    rintro rfl rfl
    simp at hshort

/-! ## Fields of fixed width -/

theorem number_inverts (width : Nat) :
    Inverts (number width) (· < 256 ^ width) (LittleEndian.encode width) := by
  intro input n rest
  simp only [number, bind_eq_ok, bytes_eq_ok, pure_eq_ok]
  constructor
  · rintro ⟨front, _, ⟨rfl, rfl⟩, rfl, rfl⟩
    exact ⟨LittleEndian.decode_lt front, by rw [LittleEndian.encode_decode]⟩
  · rintro ⟨hn, rfl⟩
    exact ⟨_, _, ⟨LittleEndian.length_encode width n, rfl⟩, LittleEndian.decode_encode hn, rfl⟩

theorem word_inverts : Inverts (number 8) (· < 2 ^ 64) (LittleEndian.encode 8) :=
  number_inverts 8

theorem byte_inverts : Inverts byte (fun _ => True) fun b => [b] := by
  intro input b rest
  simp only [byte, bind_eq_ok, number_inverts 1 _ _ _, pure_eq_ok]
  constructor
  · rintro ⟨n, _, ⟨hn, rfl⟩, rfl, rfl⟩
    simp [LittleEndian.encode]
  · rintro ⟨-, rfl⟩
    exact ⟨b.toNat, rest, ⟨b.toNat_lt, by simp [LittleEndian.encode]⟩, by simp, rfl⟩

theorem index_inverts : Inverts index (fun _ => True) encodeIndex := by
  intro input n rest
  simp only [index, encodeIndex, bind_eq_ok, number_inverts 2 _ _ _, pure_eq_ok]
  constructor
  · rintro ⟨n, _, ⟨hn, rfl⟩, rfl, rfl⟩
    rw [UInt16.toNat_ofNat_of_lt' hn]
    exact ⟨trivial, rfl⟩
  · rintro ⟨-, rfl⟩
    exact ⟨n.toNat, rest, ⟨n.toNat_lt, rfl⟩, by simp, rfl⟩

theorem bool_inverts : Inverts bool (fun _ => True) encodeBool := by
  intro input b rest
  simp only [bool, encodeBool, bind_eq_ok, byte_inverts _ _ _]
  constructor
  · rintro ⟨tag, _, ⟨-, rfl⟩, h⟩
    split at h
    next h0 =>
      obtain ⟨rfl, rfl⟩ := pure_eq_ok.mp h
      simp [h0]
    next =>
    split at h
    next h1 =>
      obtain ⟨rfl, rfl⟩ := pure_eq_ok.mp h
      simp [h1]
    · exact (throw_eq_ok.mp h).elim
  · rintro ⟨-, rfl⟩
    refine ⟨_, rest, ⟨trivial, rfl⟩, ?_⟩
    cases b <;> simp

/-! ## Options, lists and texts -/

variable {read : Reader α} {P : α → Prop} {encode : α → List UInt8}

theorem option_inverts (h : Inverts read P encode) :
    Inverts (option read) (fun o => ∀ x ∈ o, P x) (encodeOption encode) := by
  intro input o rest
  simp only [option, bind_eq_ok, byte_inverts _ _ _]
  constructor
  · rintro ⟨tag, _, ⟨-, rfl⟩, hread⟩
    split at hread
    next h0 =>
      obtain ⟨rfl, rfl⟩ := pure_eq_ok.mp hread
      simp [h0, encodeOption]
    next =>
    split at hread
    next h1 =>
      obtain ⟨x, _, hx, hpure⟩ := bind_eq_ok.mp hread
      obtain ⟨rfl, rfl⟩ := pure_eq_ok.mp hpure
      obtain ⟨hP, rfl⟩ := (h ..).mp hx
      simp [h1, hP, encodeOption]
    · exact (throw_eq_ok.mp hread).elim
  · rintro ⟨ho, rfl⟩
    cases o with
    | none => exact ⟨0, rest, ⟨trivial, rfl⟩, by simp⟩
    | some x =>
      refine ⟨1, encode x ++ rest, ⟨trivial, rfl⟩, ?_⟩
      have hx := (h (encode x ++ rest) x rest).mpr ⟨ho x rfl, rfl⟩
      rw [if_neg (by decide), if_pos rfl]
      exact bind_eq_ok.mpr ⟨x, rest, hx, rfl⟩

theorem entries_eq_ok (h : Inverts read P encode) (done : List α) :
    entries read count done input = .ok (xs, rest) ↔
      ∃ more, xs = done.reverse ++ more ∧ more.length = count ∧ (∀ x ∈ more, P x) ∧
        input = more.flatMap encode ++ rest := by
  -- on the entries to come; `done` has those that are read, the last one first
  induction count generalizing done input with
  | zero =>
    simp only [entries, Except.ok.injEq, Prod.mk.injEq, List.length_eq_zero_iff]
    constructor
    · rintro ⟨rfl, rfl⟩
      exact ⟨[], by simp⟩
    · rintro ⟨_, rfl, rfl, -, rfl⟩
      simp
  | succ count ih =>
    constructor
    · intro hread
      rw [entries] at hread
      split at hread
      next x mid hx =>
        obtain ⟨hP, rfl⟩ := (h ..).mp hx
        obtain ⟨more, rfl, rfl, hmore, rfl⟩ := (ih _).mp hread
        exact ⟨x :: more, by simp, rfl, by simpa [hP] using hmore, by simp⟩
      · cases hread
    · rintro ⟨_ | ⟨x, more⟩, rfl, hcount, hmore, rfl⟩
      · cases hcount
      · have hx := (h _ x (more.flatMap encode ++ rest)).mpr ⟨hmore x (by simp), rfl⟩
        rw [List.flatMap_cons, List.append_assoc, entries, hx]
        refine (ih _).mpr ⟨more, by simp, by simpa using hcount, ?_, rfl⟩
        exact fun y hy => hmore y (by simp [hy])

theorem list_inverts (h : Inverts read P encode) :
    Inverts (list read) (ListFits P) (encodeList encode) := by
  intro input xs rest
  simp only [list, encodeList, ListFits, bind_eq_ok, word_inverts _ _ _, entries_eq_ok h]
  constructor
  · rintro ⟨n, _, ⟨hn, rfl⟩, xs, rfl, rfl, hxs, rfl⟩
    simpa using ⟨hn, hxs⟩
  · rintro ⟨⟨hlength, hxs⟩, rfl⟩
    exact ⟨xs.length, _, ⟨hlength, by simp⟩, xs, by simp, rfl, hxs, rfl⟩

/-- Bytes that are a text are its bytes: strictness leaves no second spelling. -/
theorem decode_utf8_eq_ok {encoded : ByteArray} :
    Text.Utf8.decode encoded = .ok s ↔ encoded = s.toByteArray := by
  unfold Text.Utf8.decode
  constructor
  · intro h
    split at h
    next t ht =>
      cases h
      unfold String.fromUTF8? at ht
      split at ht
      · cases ht
        rfl
      · cases ht
    · cases h
  · rintro rfl
    have hs : String.fromUTF8? s.toByteArray = some s := by
      simp [String.fromUTF8?, s.isValidUTF8, String.fromUTF8]
    rw [hs]

theorem text_inverts : Inverts text TextFits encodeText := by
  intro input s rest
  simp only [text, encodeText, TextFits, bind_eq_ok, word_inverts _ _ _, bytes_eq_ok]
  constructor
  · rintro ⟨n, _, ⟨hn, rfl⟩, encoded, _, ⟨rfl, rfl⟩, hread⟩
    cases hdecode : Text.Utf8.decode ⟨encoded.toArray⟩ with
    | error fault =>
      rw [hdecode] at hread
      exact (throw_eq_ok.mp hread).elim
    | ok t =>
      rw [hdecode] at hread
      obtain ⟨rfl, rfl⟩ := pure_eq_ok.mp hread
      have hbytes := congrArg ByteArray.data (decode_utf8_eq_ok.mp hdecode)
      -- the bytes that were read are those of the text, so there are as many
      have hsize : t.utf8ByteSize = encoded.length := by
        rw [← String.size_toByteArray, ByteArray.size, ← hbytes]
        simp
      rw [hsize, ← hbytes]
      simpa using hn
  · rintro ⟨hs, rfl⟩
    refine ⟨s.utf8ByteSize, _, ⟨hs, List.append_assoc ..⟩, _, rest, ⟨?_, rfl⟩, ?_⟩
    · rw [← String.size_toByteArray, ByteArray.size, Array.length_toList]
    · rw [decode_utf8_eq_ok.mpr rfl]
      exact pure_eq_ok.mpr ⟨rfl, rfl⟩

end Reader

/-! ## Records -/

def Reference.Fits (r : Reference) : Prop := TextFits r.name ∧ ListFits TextFits r.namespaces

def Slot.Fits (s : Slot) : Prop := TextFits s.name ∧ ∀ ns ∈ s.qualifier, TextFits ns

def Frame.Fits (f : Frame) : Prop := ListFits Slot.Fits f.slots

def Constant.Fits : Constant → Prop
  | str s => TextFits s
  | _ => True

theorem Reference.read_inverts : Inverts read Fits encode := by
  intro input r rest
  simp only [read, Reader.bind_eq_ok, Reader.text_inverts _ _ _, Reader.pure_eq_ok,
    Reader.list_inverts Reader.text_inverts _ _ _]
  constructor
  · rintro ⟨name, _, ⟨hname, rfl⟩, namespaces, _, ⟨hnamespaces, rfl⟩, rfl, rfl⟩
    exact ⟨⟨hname, hnamespaces⟩, by simp [encode]⟩
  · rintro ⟨⟨hname, hnamespaces⟩, rfl⟩
    exact ⟨r.name, _, ⟨hname, by simp [encode]⟩, r.namespaces, rest, ⟨hnamespaces, rfl⟩, rfl, rfl⟩

theorem Slot.read_inverts : Inverts read Fits encode := by
  intro input s rest
  simp only [read, Reader.bind_eq_ok, Reader.text_inverts _ _ _, Reader.bool_inverts _ _ _,
    Reader.option_inverts Reader.text_inverts _ _ _, Reader.pure_eq_ok]
  constructor
  · rintro ⟨name, _, ⟨hname, rfl⟩, qualifier, _, ⟨hqualifier, rfl⟩, hoisted, _, ⟨-, rfl⟩,
      immutable, _, ⟨-, rfl⟩, rfl, rfl⟩
    exact ⟨⟨hname, hqualifier⟩, by simp [encode]⟩
  · rintro ⟨⟨hname, hqualifier⟩, rfl⟩
    exact ⟨s.name, _, ⟨hname, by simp [encode]⟩, s.qualifier, _, ⟨hqualifier, rfl⟩,
      s.hoisted, _, ⟨trivial, rfl⟩, s.immutable, rest, ⟨trivial, rfl⟩, rfl, rfl⟩

theorem Frame.read_inverts : Inverts read Fits encode := by
  intro input f rest
  simp only [read, Reader.bind_eq_ok, Reader.option_inverts Reader.index_inverts _ _ _,
    Reader.list_inverts Slot.read_inverts _ _ _, Reader.pure_eq_ok]
  constructor
  · rintro ⟨parent, _, ⟨-, rfl⟩, slots, _, ⟨hslots, rfl⟩, rfl, rfl⟩
    exact ⟨hslots, by simp [encode]⟩
  · rintro ⟨hslots, rfl⟩
    exact ⟨f.parent, _, ⟨by simp, by simp [encode]⟩, f.slots, rest, ⟨hslots, rfl⟩, rfl, rfl⟩

theorem Constant.read_inverts : Inverts read Fits encode := by
  intro input c rest
  simp only [read, Reader.bind_eq_ok, Reader.number_inverts _ _ _ _]
  constructor
  · rintro ⟨kind, _, ⟨hkind, rfl⟩, hread⟩
    -- one case for each kind, in the order of the kinds
    split at hread
    · obtain ⟨rfl, rfl⟩ := Reader.pure_eq_ok.mp hread
      exact ⟨trivial, rfl⟩
    · obtain ⟨rfl, rfl⟩ := Reader.pure_eq_ok.mp hread
      exact ⟨trivial, rfl⟩
    · simp only [Reader.bind_eq_ok, Reader.bool_inverts _ _ _, Reader.pure_eq_ok] at hread
      obtain ⟨b, _, ⟨-, rfl⟩, rfl, rfl⟩ := hread
      exact ⟨trivial, by simp [encode]⟩
    · simp only [Reader.bind_eq_ok, Reader.word_inverts _ _ _, Reader.pure_eq_ok] at hread
      obtain ⟨n, _, ⟨hn, rfl⟩, rfl, rfl⟩ := hread
      exact ⟨trivial, by simp [encode, UInt64.toNat_ofNat_of_lt' hn]⟩
    · simp only [Reader.bind_eq_ok, Reader.word_inverts _ _ _, Reader.pure_eq_ok] at hread
      obtain ⟨n, _, ⟨hn, rfl⟩, rfl, rfl⟩ := hread
      exact ⟨trivial, by simp [encode, UInt64.toNat_ofNat_of_lt' hn]⟩
    · simp only [Reader.bind_eq_ok, Reader.text_inverts _ _ _, Reader.pure_eq_ok] at hread
      obtain ⟨s, _, ⟨hs, rfl⟩, rfl, rfl⟩ := hread
      exact ⟨hs, by simp [encode]⟩
    · exact (Reader.throw_eq_ok.mp hread).elim
  · rintro ⟨hc, rfl⟩
    cases c with
    | undefined => exact ⟨0, rest, ⟨by decide, rfl⟩, Reader.pure_eq_ok.mpr ⟨rfl, rfl⟩⟩
    | null => exact ⟨1, rest, ⟨by decide, rfl⟩, Reader.pure_eq_ok.mpr ⟨rfl, rfl⟩⟩
    | bool b =>
      refine ⟨2, _, ⟨by decide, List.append_assoc ..⟩, ?_⟩
      simp only [Reader.bind_eq_ok, Reader.bool_inverts _ _ _, Reader.pure_eq_ok]
      exact ⟨b, rest, ⟨trivial, rfl⟩, rfl, rfl⟩
    | int n =>
      refine ⟨3, _, ⟨by decide, List.append_assoc ..⟩, ?_⟩
      simp only [Reader.bind_eq_ok, Reader.word_inverts _ _ _, Reader.pure_eq_ok]
      exact ⟨n.toUInt64.toNat, rest, ⟨UInt64.toNat_lt _, rfl⟩, by simp, rfl⟩
    | float x =>
      refine ⟨4, _, ⟨by decide, List.append_assoc ..⟩, ?_⟩
      simp only [Reader.bind_eq_ok, Reader.word_inverts _ _ _, Reader.pure_eq_ok]
      exact ⟨x.bits.toNat, rest, ⟨UInt64.toNat_lt _, rfl⟩, by simp, rfl⟩
    | str s =>
      refine ⟨5, _, ⟨by decide, List.append_assoc ..⟩, ?_⟩
      simp only [Reader.bind_eq_ok, Reader.text_inverts _ _ _, Reader.pure_eq_ok]
      exact ⟨s, rest, ⟨hc, rfl⟩, rfl, rfl⟩

/-- All lists and texts of the image have lengths that eight bytes hold. -/
structure Fits (image : Image) : Prop where
  multinames : ListFits Reference.Fits image.multinames
  frames : ListFits Frame.Fits image.frames
  constants : ListFits Constant.Fits image.constants
  code : image.code.length < 2 ^ 64

theorem read_inverts : Inverts read Fits Image.encode := by
  intro input image rest
  simp only [read, Reader.bind_eq_ok, Reader.list_inverts Reference.read_inverts _ _ _,
    Reader.list_inverts Frame.read_inverts _ _ _, Reader.list_inverts Constant.read_inverts _ _ _,
    Reader.index_inverts _ _ _, Reader.list_inverts Reader.byte_inverts _ _ _, Reader.pure_eq_ok]
  constructor
  · rintro ⟨multinames, _, ⟨hmultinames, rfl⟩, frames, _, ⟨hframes, rfl⟩, constants, _,
      ⟨hconstants, rfl⟩, base, _, ⟨-, rfl⟩, code, _, ⟨hcode, rfl⟩, rfl, rfl⟩
    exact ⟨⟨hmultinames, hframes, hconstants, hcode.1⟩, by simp [Image.encode]⟩
  · rintro ⟨⟨hmultinames, hframes, hconstants, hcode⟩, rfl⟩
    exact ⟨image.multinames, _, ⟨hmultinames, by simp [Image.encode]⟩, image.frames, _,
      ⟨hframes, rfl⟩, image.constants, _, ⟨hconstants, rfl⟩, image.base, _, ⟨trivial, rfl⟩,
      image.code, rest, ⟨⟨hcode, by simp⟩, rfl⟩, rfl, rfl⟩

theorem decode_eq_ok_iff {input : List UInt8} {image : Image} :
    decode input = .ok image ↔ image.Fits ∧ ∃ rest, input = image.encode ++ rest := by
  have hread : decode input = .ok image ↔ ∃ rest, read input = .ok (image, rest) := by
    have hrun : read.run input = read input := rfl
    unfold decode
    rw [hrun]
    cases read input with
    | error fault => simp
    | ok p => simp [Prod.ext_iff]
  simp only [hread, read_inverts _ _ _]
  exact exists_and_left

/-- Bytes are read as an image exactly if its encoding stands at their front, whatever follows it,
and no two images share an encoding. -/
theorem decode_iff_encode_prefix :
    (∀ (image : Image) (input : List UInt8),
      decode input = .ok image ↔ image.Fits ∧ image.encode <+: input) ∧
    Set.InjOn Image.encode {image | image.Fits} := by
  have hiff (image : Image) (input : List UInt8) :
      decode input = .ok image ↔ image.Fits ∧ image.encode <+: input := by
    rw [decode_eq_ok_iff]
    exact and_congr_right fun _ => exists_congr fun rest => eq_comm
  refine ⟨hiff, fun a ha b hb heq => ?_⟩
  -- both are what their common encoding is read as
  have hdecode := (hiff a a.encode).mpr ⟨ha, List.prefix_rfl⟩
  rw [heq, (hiff b b.encode).mpr ⟨hb, List.prefix_rfl⟩] at hdecode
  cases hdecode
  rfl

end ScopeMachine.Image
