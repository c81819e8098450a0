import ScopeMachine.Binary64
import ScopeMachine.Text.Quoted

/-!
# Texts without a line break

Numbers are written without a line break, and so is a quoted text, whatever its characters: a line
break in it is escaped.
-/

namespace ScopeMachine

def Text.Unbroken (s : String) : Prop := '\n' ∉ s.toList

namespace Text

instance (s : String) : Decidable (Unbroken s) := inferInstanceAs (Decidable ('\n' ∉ s.toList))

@[simp] theorem unbroken_append (s t : String) : Unbroken (s ++ t) ↔ Unbroken s ∧ Unbroken t := by
  simp [Unbroken]

theorem unbroken_intercalate {sep : String} (hsep : Unbroken sep) (texts : List String) :
    Unbroken (sep.intercalate texts) ↔ ∀ t ∈ texts, Unbroken t := by
  induction texts with
  | nil => simp [Unbroken]
  | cons t texts ih =>
    cases texts with
    | nil => simp
    | cons u texts => simp [ih, hsep]

theorem unbroken_ofList {cs : List Char} (h : ∀ c ∈ cs, c ≠ '\n') : Unbroken (String.ofList cs) := by
  simpa [Unbroken] using fun hmem => h _ hmem rfl

/-! ## Numbers -/

theorem ne_newline_of_mem_toDigits {base n : Nat} (hbase : 1 < base) {c : Char}
    (hc : c ∈ Nat.toDigits base n) : c ≠ '\n' := by
  induction n using Nat.strongRecOn with
  | ind n ih =>
    rw [Nat.toDigits_eq_if hbase] at hc
    split at hc
    · rw [List.mem_singleton.mp hc]
      exact Nat.digitChar_ne _ (by decide)
    next hn =>
      rcases List.mem_append.mp hc with hc | hc
      · exact ih _ (Nat.div_lt_self (by omega) hbase) hc
      · rw [List.mem_singleton.mp hc]
        exact Nat.digitChar_ne _ (by decide)

theorem unbroken_nat (n : Nat) : Unbroken (toString n) := by
  rw [Nat.toString_eq_ofList_toDigits]
  exact unbroken_ofList fun c hc => ne_newline_of_mem_toDigits (by decide) hc

theorem unbroken_int (n : Int) : Unbroken (toString n) := by
  cases n with
  | ofNat n => exact unbroken_nat n
  | negSucc n => exact (unbroken_append "-" _).mpr ⟨by decide, unbroken_nat (n + 1)⟩

theorem unbroken_positional (d : Decimal) : Unbroken d.positional := by
  have hdigits (c : Char) (hc : c ∈ Nat.toDigits 10 d.coefficient) : c ≠ '\n' :=
    ne_newline_of_mem_toDigits (by decide) hc
  have hzeros (k : Nat) (c : Char) (hc : c ∈ List.replicate k '0') : c ≠ '\n' := by
    rw [List.eq_of_mem_replicate hc]
    decide
  unfold Decimal.positional
  dsimp only
  -- zeros follow the digits, or a point is among them, or zeros are in front
  split
  · refine unbroken_ofList fun c hc => ?_
    rcases List.mem_append.mp hc with hc | hc
    · exact hdigits c hc
    · exact hzeros _ c hc
  split
  · refine unbroken_ofList fun c hc => ?_
    rcases List.mem_append.mp hc with hc | hc
    · exact hdigits c (List.mem_of_mem_take hc)
    · rcases List.mem_cons.mp hc with rfl | hc
      · decide
      · exact hdigits c (List.mem_of_mem_drop hc)
  · refine unbroken_ofList fun c hc => ?_
    simp only [List.mem_cons, List.mem_append] at hc
    rcases hc with (rfl | rfl | hc) | hc
    · decide
    · decide
    · exact hzeros _ c hc
    · exact hdigits c hc

theorem unbroken_magnitude (x : Binary64) : Unbroken x.magnitudeText := by
  unfold Binary64.magnitudeText
  repeat' split
  · decide
  · decide
  · exact unbroken_positional _

theorem unbroken_binary64 (x : Binary64) : Unbroken x.toText := by
  unfold Binary64.toText
  repeat' split
  · decide
  · exact (unbroken_append "-" _).mpr ⟨by decide, unbroken_magnitude x⟩
  · exact unbroken_magnitude x

/-! ## Layout -/

theorem unbroken_alignRight {s : String} (hs : Unbroken s) (width : Nat) :
    Unbroken (alignRight width s) := by
  refine (unbroken_append _ _).mpr ⟨unbroken_ofList fun c hc => ?_, hs⟩
  rw [List.eq_of_mem_replicate hc]
  decide

theorem newline_not_mem_escape (c : Char) : '\n' ∉ Quoted.escape c := by
  by_cases hc : c = '\n'
  · subst hc
    decide
  unfold Quoted.escape
  split
  all_goals try decide
  split
  · -- the code point of a character without a glyph is written in digits
    have hhex : '\n' ∉ (hex 1 c.toNat).toList := by
      simp only [hex, String.toList_ofList, List.mem_append, not_or]
      refine ⟨fun hmem => ?_, fun hmem => ne_newline_of_mem_toDigits (by decide) hmem rfl⟩
      cases List.eq_of_mem_replicate hmem
    simp [hhex]
  · simpa [eq_comm] using hc

theorem unbroken_quoted (s : String) : Unbroken (Quoted.encode s) := by
  refine unbroken_ofList fun c hc => ?_
  simp only [List.mem_cons, List.mem_append, List.mem_flatMap, List.not_mem_nil, or_false] at hc
  rintro rfl
  rcases hc with (hc | ⟨d, -, hmem⟩) | hc
  · cases hc
  · exact newline_not_mem_escape d hmem
  · cases hc

end Text

end ScopeMachine
