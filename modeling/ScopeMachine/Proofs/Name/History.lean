import Mathlib.Algebra.Group.Nat.Defs
import Mathlib.Data.Finset.Card
import Mathlib.Data.Finset.Dedup
import ScopeMachine.Proofs.Name.Numbering

/-!
# Histories of an interner

Texts are interned, names asked for and texts read back in any order, and some texts are interned
again and again. As long as there are names enough, the interner is what interning the texts alone
makes of it, in the order in which they come (`after_eq_internAll`). So the replies to all requests
are settled by the texts interned so far, and agree with each other: `requests_agree`.
-/

namespace ScopeMachine.Interner

inductive Request where
  | intern (s : String)
  | tryIntern (s : String)
  | get (s : String)
  | lookup (n : Name)

inductive Reply where
  /-- The name of an interned text, or why it got none. -/
  | name (n : Except InternError Name)
  | found (n : Option Name)
  | text (s : String)

def Request.text? : Request → Option String
  | intern s | tryIntern s => some s
  | get _ | lookup _ => none

def interned (requests : List Request) : List String := requests.filterMap Request.text?

def reply (i : Interner) : Request → Reply × Interner
  | .intern s => (.name (.ok (i.intern s).1), (i.intern s).2)
  | .tryIntern s => (.name (i.tryIntern s).1, (i.tryIntern s).2)
  | .get s => (.found (i.get? s), i)
  | .lookup n => (.text (i.text n), i)

def after (i : Interner) (requests : List Request) : Interner :=
  requests.foldl (fun i r => (i.reply r).2) i

def replies : Interner → List Request → List Reply
  | _, [] => []
  | i, r :: requests => (i.reply r).1 :: (i.reply r).2.replies requests

variable {i j : Interner}

/-! ## Single requests -/

/-- A text that is new takes a name, so there was one left. -/
theorem tryIntern_of_size_le (h : (i.intern s).2.size ≤ nameLimit) :
    i.tryIntern s = (.ok (i.intern s).1, (i.intern s).2) := by
  rcases i.tryIntern_cases s with ⟨htry, -⟩ | ⟨-, hnew, hfull⟩
  · exact htry
  · rw [size_intern_of_get?_eq_none hnew] at h
    omega

theorem reply_of_text? {r : Request} (hr : r.text? = some s)
    (h : (i.intern s).2.size ≤ nameLimit) :
    i.reply r = (.name (.ok (i.intern s).1), (i.intern s).2) := by
  cases r with
  | intern t =>
    cases hr
    rfl
  | tryIntern t =>
    cases hr
    rw [reply, tryIntern_of_size_le h]
  | get t => cases hr
  | lookup n => cases hr

theorem reply_of_text?_eq_none {r : Request} (hr : r.text? = none) : (i.reply r).2 = i := by
  cases r with
  | intern t => cases hr
  | tryIntern t => cases hr
  | get t => rfl
  | lookup n => rfl

/-! ## Runs of requests -/

theorem after_append (i : Interner) (front back : List Request) :
    i.after (front ++ back) = (i.after front).after back :=
  List.foldl_append

/-- The requests that intern nothing have no say, and those that do intern their texts. -/
theorem after_eq_internAll {requests : List Request}
    (h : (i.internAll (interned requests)).size ≤ nameLimit) :
    i.after requests = i.internAll (interned requests) := by
  induction requests generalizing i with
  | nil => rfl
  | cons r requests ih =>
    cases hr : r.text? with
    | none =>
      have htexts : interned (r :: requests) = interned requests := by simp [interned, hr]
      rw [htexts] at h ⊢
      calc i.after (r :: requests)
          = (i.reply r).2.after requests := rfl
        _ = i.after requests := by rw [reply_of_text?_eq_none hr]
        _ = i.internAll (interned requests) := ih h
    | some s =>
      have htexts : interned (r :: requests) = s :: interned requests := by simp [interned, hr]
      rw [htexts, internAll_cons] at h ⊢
      -- what comes later adds texts at most, so there is room for this one
      have hroom := (size_mono ((i.intern s).2.le_internAll (interned requests))).trans h
      calc i.after (r :: requests)
          = (i.reply r).2.after requests := rfl
        _ = (i.intern s).2.after requests := by rw [reply_of_text? hr hroom]
        _ = (i.intern s).2.internAll (interned requests) := ih h

theorem getElem?_replies (i : Interner) (requests : List Request) (k : Nat) :
    (i.replies requests)[k]? =
      requests[k]?.map fun r => ((i.after (requests.take k)).reply r).1 := by
  induction requests generalizing i k with
  | nil => rfl
  | cons r requests ih =>
    cases k with
    | zero => rfl
    | succ k =>
      simp only [replies, List.getElem?_cons_succ, List.take_succ_cons]
      exact ih (i.reply r).2 k

/-! ## Texts of an interner that was new -/

theorem nodup_texts (i : Interner) : i.texts.toList.Nodup := by
  rw [List.nodup_iff_getElem?_ne_getElem?]
  intro k l hkl hl heq
  obtain ⟨s, hs⟩ : ∃ s, i.texts.toList[l]? = some s := ⟨_, List.getElem?_eq_getElem hl⟩
  have hk : i.Spells ⟨k⟩ s := by simpa [Spells] using heq.trans hs
  have hl : i.Spells ⟨l⟩ s := by simpa [Spells] using hs
  cases i.biUnique_spells.1 hk hl
  exact Nat.lt_irrefl _ hkl

theorem texts_internAll_new (all : List String) :
    (new.internAll all).texts.toList = ("" :: all).eraseDups := by
  have hnew : new.texts = #[""] := rfl
  rw [texts_internAll, unknown, hnew, List.eraseDups_cons]
  simp [beq_eq_decide]

theorem size_internAll_new (all : List String) :
    (new.internAll all).size = (insert "" all.toFinset).card := by
  have hset : insert "" all.toFinset = (new.internAll all).texts.toList.toFinset := by
    ext s
    simp [texts_internAll_new]
  rw [hset, List.toFinset_card_of_nodup (nodup_texts _), Array.length_toList]
  rfl

/-! ## Histories -/

structure Exchange (requests : List Request) (k : Nat) (r : Request) (a : Reply) : Prop where
  asked : requests[k]? = some r
  replied : (new.replies requests)[k]? = some a

/-- The `k`th request interns `s`, and the reply is the name `n`. -/
def Names (requests : List Request) (k : Nat) (s : String) (n : Name) : Prop :=
  ∃ r, r.text? = some s ∧ Exchange requests k r (.name (.ok n))

/-- The replies of an interner that was new agree with each other and with what it holds. Texts are
numbered in the order in which they are interned first, behind the empty text; a text keeps its name
and a name its text; and what interns nothing changes nothing. -/
structure Agree (requests : List Request) : Prop where
  texts : ∀ k, (new.after (requests.take k)).texts.toList =
    ("" :: interned (requests.take k)).eraseDups
  size : ∀ k, (new.after (requests.take k)).size =
    (insert "" (interned (requests.take k)).toFinset).card
  named : ∀ k r s, requests[k]? = some r → r.text? = some s → ∃ n, Names requests k s n
  number : ∀ k s n, Names requests k s n → ("" :: interned requests).eraseDups[n.index]? = some s
  name_eq_iff : ∀ k l s t n m, Names requests k s n → Names requests l t m → (n = m ↔ s = t)
  name_later : ∀ k l r s n, Names requests k s n → k < l → requests[l]? = some r →
    r.text? = some s → Exchange requests l r (.name (.ok n))
  found_later : ∀ k l s n, Names requests k s n → k < l → requests[l]? = some (.get s) →
    Exchange requests l (.get s) (.found (some n))
  text_later : ∀ k l s n, Names requests k s n → k < l → requests[l]? = some (.lookup n) →
    Exchange requests l (.lookup n) (.text s)
  found_none_iff : ∀ k s, requests[k]? = some (.get s) →
    (Exchange requests k (.get s) (.found none) ↔ s ≠ "" ∧ s ∉ interned (requests.take k))
  text_unknown : ∀ k n, requests[k]? = some (.lookup n) →
    (new.after (requests.take k)).size ≤ n.index →
      Exchange requests k (.lookup n) (.text "<unknown>")
  unchanged : ∀ k r, requests[k]? = some r → r.text? = none →
    new.after (requests.take (k + 1)) = new.after (requests.take k)

section

variable {requests : List Request}

theorem exchange_iff : Exchange requests k r a ↔
    requests[k]? = some r ∧ ((new.after (requests.take k)).reply r).1 = a := by
  constructor
  · rintro ⟨hr, ha⟩
    rw [getElem?_replies, hr] at ha
    exact ⟨hr, Option.some.inj ha⟩
  · rintro ⟨hr, rfl⟩
    exact ⟨hr, by rw [getElem?_replies, hr]; rfl⟩

theorem interned_append (front back : List Request) :
    interned (front ++ back) = interned front ++ interned back :=
  List.filterMap_append

theorem take_succ_of_getElem? {r : Request} (hr : requests[k]? = some r) :
    requests.take (k + 1) = requests.take k ++ [r] := by
  rw [List.take_add_one, hr]
  rfl

variable (hfew : (interned requests).toFinset.card < 2 ^ 32)
include hfew

theorem size_internAll_le (k : Nat) :
    (new.internAll (interned (requests.take k))).size ≤ nameLimit := by
  -- with the empty text there is at most one text more than are interned
  have hall : (new.internAll (interned requests)).size ≤ nameLimit := by
    rw [size_internAll_new]
    exact (Finset.card_insert_le ..).trans hfew
  rw [← List.take_append_drop k requests, interned_append, internAll_append] at hall
  exact (size_mono (le_internAll ..)).trans hall

theorem after_take (k : Nat) :
    new.after (requests.take k) = new.internAll (interned (requests.take k)) :=
  after_eq_internAll (size_internAll_le hfew k)

theorem after_take_mono (hkl : k ≤ l) :
    new.after (requests.take k) ≤ new.after (requests.take l) := by
  have hsplit : requests.take l = requests.take k ++ (requests.take l).drop k := by
    have hfront : (requests.take l).take k = requests.take k := by
      rw [List.take_take, Nat.min_eq_left hkl]
    rw [← hfront, List.take_append_drop]
  rw [after_take hfew k, after_take hfew l, hsplit, interned_append, internAll_append]
  exact le_internAll ..

theorem after_take_succ {r : Request} (hr : requests[k]? = some r) (hs : r.text? = some s) :
    new.after (requests.take (k + 1)) = ((new.after (requests.take k)).intern s).2 := by
  have htext : interned [r] = [s] := by simp [interned, hs]
  rw [after_take hfew, after_take hfew, take_succ_of_getElem? hr, interned_append,
    internAll_append, htext]
  rfl

/-- A request to intern is never out of names. -/
theorem exchange_of_text? {r : Request} (hr : requests[k]? = some r) (hs : r.text? = some s) :
    Exchange requests k r (.name (.ok ((new.after (requests.take k)).intern s).1)) := by
  have hroom : ((new.after (requests.take k)).intern s).2.size ≤ nameLimit := by
    rw [← after_take_succ hfew hr hs, after_take hfew]
    exact size_internAll_le hfew (k + 1)
  exact exchange_iff.mpr ⟨hr, by rw [reply_of_text? hs hroom]⟩

theorem spells_of_names (h : Names requests k s n) (hkl : k < l) :
    (new.after (requests.take l)).Spells n s := by
  obtain ⟨r, hs, hr, hn⟩ := h
  have hname := hn.symm.trans (exchange_of_text? hfew hr hs).replied
  cases hname
  have hnow := intern_spells (new.after (requests.take k)) s
  rw [← after_take_succ hfew hr hs] at hnow
  exact after_take_mono hfew hkl hnow

end

/-- In every history of requests in which fewer texts come than there are names, whatever their
order, the replies agree. -/
theorem requests_agree (requests : List Request)
    (hfew : (interned requests).toFinset.card < 2 ^ 32) : Agree requests where
  texts k := by rw [after_take hfew, texts_internAll_new]
  size k := by rw [after_take hfew, size_internAll_new]
  named k r s hr hs := ⟨_, r, hs, exchange_of_text? hfew hr hs⟩
  number k s n h := by
    obtain ⟨r, -, hr, -⟩ := id h
    have hlt := (List.getElem?_eq_some_iff.mp hr).1
    have hspells := spells_of_names hfew h hlt
    rw [after_take hfew, List.take_length] at hspells
    rw [← texts_internAll_new, Array.getElem?_toList]
    exact hspells
  name_eq_iff k l s t n m h h' := by
    -- both names are spelled once both requests have been made
    have hs := spells_of_names hfew h (Nat.lt_succ_of_le (Nat.le_max_left k l))
    have ht := spells_of_names hfew h' (Nat.lt_succ_of_le (Nat.le_max_right k l))
    exact Relator.rel_eq (biUnique_spells _) hs ht
  name_later k l r s n h hkl hr hs := by
    have hexchange := exchange_of_text? hfew hr hs
    rwa [intern_of_spells (spells_of_names hfew h hkl)] at hexchange
  found_later k l s n h hkl hr := by
    refine exchange_iff.mpr ⟨hr, ?_⟩
    rw [reply, get?_eq_some_iff.mpr (spells_of_names hfew h hkl)]
  text_later k l s n h hkl hr := by
    refine exchange_iff.mpr ⟨hr, ?_⟩
    rw [reply, (spells_of_names hfew h hkl).text]
  found_none_iff k s hr := by
    have htexts := texts_internAll_new (interned (requests.take k))
    simp only [exchange_iff, hr, true_and, reply, Reply.found.injEq, get?_eq_none_iff,
      after_take hfew, htexts, List.mem_eraseDups, List.mem_cons, not_or, ne_eq]
  text_unknown k n hr hn := by
    refine exchange_iff.mpr ⟨hr, ?_⟩
    have hnone : (new.after (requests.take k)).texts[n.index]? = none :=
      Array.getElem?_eq_none hn
    rw [reply, text, hnone]
    rfl
  unchanged k r hr hnone := by
    rw [take_succ_of_getElem? hr, after_append]
    exact reply_of_text?_eq_none hnone

/-- Two texts get the numbers 1 and 2, whatever was asked for and however often they came. -/
theorem requests_agree_on_two_texts :
    let requests : List Request := [.lookup ⟨1⟩, .intern "x", .get "y", .tryIntern "",
      .tryIntern "<unknown>", .lookup ⟨3⟩, .intern "x", .lookup ⟨2⟩]
    (interned requests).toFinset.card < 2 ^ 32 ∧ Agree requests ∧
      (new.after requests).texts.toList = ["", "x", "<unknown>"] := by
  intro requests
  have hfew : (interned requests).toFinset.card < 2 ^ 32 :=
    (List.toFinset_card_le _).trans_lt (by decide)
  exact ⟨hfew, requests_agree requests hfew, (requests_agree requests hfew).texts requests.length⟩

end ScopeMachine.Interner
