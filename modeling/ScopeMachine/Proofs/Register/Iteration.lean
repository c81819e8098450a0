import Mathlib.Data.List.Nodup
import ScopeMachine.Proofs.Register.Mask

/-!
# Going through a mask

`m.Yields codes k`: asked for one member after the other, the mask `m` gives `codes`, and `k` is what
is left of it. Each step takes the lowest member away and nothing else (`contains_withoutLowest`), so
a mask yields its members in ascending order, and going through the codes that a mask was made of is
sorting them and leaving out what comes again or is beyond the capacity (`members_in_order`).
-/

namespace ScopeMachine.Mask

/-- Asked for as many members, the mask gives these, and then this is left of it. -/
inductive Yields : Mask → List UInt8 → Mask → Prop
  | nil : Yields m [] m
  | cons : m.next? = some (c, n) → Yields n given k → Yields m (c :: given) k

variable {m : Mask} {c : UInt8}

/-! ## The lowest member -/

/-- Subtracting one clears the lowest set bit and sets those below it, so that the conjunction loses
the lowest set bit only. -/
theorem testBit_and_sub_one {x t : Nat} (hset : x.testBit t = true)
    (hlow : ∀ j < t, x.testBit j = false) (k : Nat) :
    (x &&& (x - 1)).testBit k = (x.testBit k && decide (k ≠ t)) := by
  have hrest : x % 2 ^ (t + 1) = 2 ^ t := by
    refine Nat.eq_of_testBit_eq fun j => ?_
    rw [Nat.testBit_mod_two_pow, Nat.testBit_two_pow]
    rcases Nat.lt_trichotomy j t with hj | rfl | hj
    · simp [hlow j hj, Nat.ne_of_gt hj]
    · simp [hset]
    · have hbeyond : ¬j < t + 1 := by omega
      simp [hbeyond, Nat.ne_of_lt hj]
  have hx : x = 2 ^ (t + 1) * (x / 2 ^ (t + 1)) + 2 ^ t := by
    have := Nat.div_add_mod x (2 ^ (t + 1))
    omega
  have hpred : x - 1 = 2 ^ (t + 1) * (x / 2 ^ (t + 1)) + (2 ^ t - 1) := by
    have := Nat.one_le_two_pow (n := t)
    omega
  have hlt : 2 ^ t < 2 ^ (t + 1) := Nat.pow_lt_pow_right (by decide) (Nat.lt_succ_self t)
  rw [Nat.testBit_and, hpred, Nat.testBit_two_pow_mul_add _ (by omega)]
  split
  next hk =>
    rw [Nat.testBit_two_pow_sub_one]
    rcases Nat.lt_or_eq_of_le (Nat.le_of_lt_succ hk) with hk | rfl
    · simp [hlow k hk]
    · simp
  next hk =>
    -- above the lowest set bit the number and its predecessor agree
    have hbit : x.testBit k = (x / 2 ^ (t + 1)).testBit (k - (t + 1)) := by
      conv_lhs => rw [hx]
      rw [Nat.testBit_two_pow_mul_add _ hlt, if_neg hk]
    have hne : k ≠ t := by omega
    simp [← hbit, hne]

theorem lt_of_contains (h : m.contains c = true) : c.toNat < 32 := by
  refine Nat.lt_of_not_le fun hle => ?_
  rw [contains_of_le hle] at h
  cases h

theorem exists_testBit (h : m.bits ≠ 0) : ∃ k < 32, m.testBit k = true := by
  have hne : m.bits.toNat ≠ 0 := fun hzero => h (UInt32.toNat_inj.mp hzero)
  obtain ⟨k, hk⟩ := Nat.exists_testBit_of_ne_zero hne
  refine ⟨k, Nat.lt_of_not_le fun hle => ?_, hk⟩
  rw [← testBit_eq, testBit_of_le hle] at hk
  cases hk

theorem trailingZeros_lowest (h : m.bits ≠ 0) :
    m.trailingZeros < 32 ∧ m.testBit m.trailingZeros = true ∧
      ∀ j < m.trailingZeros, m.testBit j = false := by
  obtain ⟨k, hk, hbit⟩ := exists_testBit h
  obtain ⟨t, ht⟩ : ∃ t, (List.range capacity).find? m.testBit = some t :=
    Option.isSome_iff_exists.mp (List.find?_isSome.mpr ⟨k, List.mem_range.mpr hk, hbit⟩)
  obtain ⟨hset, hin, hlow⟩ := List.find?_range_eq_some.mp ht
  have heq : m.trailingZeros = t := by rw [trailingZeros, ht, Option.getD_some]
  rw [heq]
  exact ⟨List.mem_range.mp hin, hset, fun j hj => by simpa using hlow j hj⟩

theorem toNat_lowest (h : m.bits ≠ 0) : (UInt8.ofNat m.trailingZeros).toNat = m.trailingZeros :=
  UInt8.toNat_ofNat_of_lt' (Nat.lt_trans (trailingZeros_lowest h).1 (by decide))

theorem contains_lowest (h : m.bits ≠ 0) : m.contains (UInt8.ofNat m.trailingZeros) = true := by
  rw [contains, toNat_lowest h]
  exact (trailingZeros_lowest h).2.1

theorem trailingZeros_le (h : m.bits ≠ 0) (hc : m.contains c = true) : m.trailingZeros ≤ c.toNat := by
  refine Nat.le_of_not_lt fun hlt => ?_
  rw [contains, (trailingZeros_lowest h).2.2 _ hlt] at hc
  cases hc

theorem contains_withoutLowest (h : m.bits ≠ 0) (c : UInt8) :
    m.withoutLowest.contains c = (m.contains c && decide (c ≠ UInt8.ofNat m.trailingZeros)) := by
  obtain ⟨-, hset, hlow⟩ := trailingZeros_lowest h
  have hone : (1 : UInt32) ≤ m.bits := by
    rw [UInt32.le_iff_toNat_le]
    exact Nat.pos_of_ne_zero fun hzero => h (UInt32.toNat_inj.mp hzero)
  have hcode : c ≠ UInt8.ofNat m.trailingZeros ↔ c.toNat ≠ m.trailingZeros := by
    rw [ne_eq, ← UInt8.toNat_inj, toNat_lowest h]
  have hbit := testBit_and_sub_one hset hlow c.toNat
  simpa [contains, testBit_eq, withoutLowest, UInt32.toNat_sub_of_le _ _ hone, hcode] using hbit

/-! ## The members in order -/

theorem mem_codes : c ∈ m.codes ↔ m.contains c = true := by
  fun_induction codes m with
  | case1 m hzero => simp [contains, testBit, hzero]
  | case2 m hbits ih =>
    rw [List.mem_cons, ih, contains_withoutLowest hbits]
    by_cases hc : c = UInt8.ofNat m.trailingZeros
    · simp [hc, contains_lowest hbits]
    · simp [hc]

theorem pairwise_codes (m : Mask) : m.codes.Pairwise (· < ·) := by
  fun_induction codes m with
  | case1 => exact .nil
  | case2 m hbits ih =>
    refine .cons (fun c hc => ?_) ih
    -- what is left is not below the lowest member and not the lowest member
    rw [mem_codes, contains_withoutLowest hbits] at hc
    obtain ⟨hin, hne⟩ : m.contains c = true ∧ c ≠ UInt8.ofNat m.trailingZeros := by simpa using hc
    have hle := trailingZeros_le hbits hin
    rw [← toNat_lowest hbits] at hle
    exact UInt8.lt_of_le_of_ne (UInt8.le_iff_toNat_le.mpr hle) (Ne.symm hne)

theorem nodup_codes (m : Mask) : m.codes.Nodup :=
  m.pairwise_codes.imp fun h => UInt8.ne_of_lt h

theorem length_codes (m : Mask) : m.codes.length = m.count := by
  -- the members, and the set bits below the capacity, are the same numbers
  have hperm : (m.codes.map UInt8.toNat).Perm ((List.range capacity).filter m.testBit) := by
    refine (List.perm_ext_iff_of_nodup ?_ (List.nodup_range.filter _)).mpr fun k => ?_
    · exact m.nodup_codes.map fun _ _ => UInt8.toNat_inj.mp
    · simp only [List.mem_map, mem_codes, List.mem_filter, List.mem_range]
      constructor
      · rintro ⟨c, hc, rfl⟩
        exact ⟨lt_of_contains hc, hc⟩
      · rintro ⟨hk, hbit⟩
        have hcode : (UInt8.ofNat k).toNat = k :=
          UInt8.toNat_ofNat_of_lt' (Nat.lt_trans hk (by decide))
        exact ⟨UInt8.ofNat k, by rwa [contains, hcode], hcode⟩
  rw [count, List.countP_eq_length_filter, ← hperm.length_eq, List.length_map]

theorem lowest?_eq_head? (m : Mask) : m.lowest? = m.codes.head? := by
  rw [codes.eq_def, lowest?, isEmpty]
  by_cases hzero : m.bits = 0 <;> simp [hzero]

/-! ## Masks of codes -/

theorem contains_of (d c : UInt8) : (of d).contains c = true ↔ c = d ∧ c.toNat < 32 := by
  unfold of
  split
  next hd =>
    have hword : ((1 : UInt32) <<< d.toUInt32).toNat = 2 ^ d.toNat := by
      have hpow : 2 ^ d.toNat < 2 ^ 32 := Nat.pow_lt_pow_right (by decide) hd
      have hshift : d.toNat % 32 = d.toNat := Nat.mod_eq_of_lt hd
      rw [UInt32.toNat_shiftLeft, UInt8.toNat_toUInt32, hshift, UInt32.toNat_one,
        Nat.one_shiftLeft, Nat.mod_eq_of_lt hpow]
    rw [contains, testBit_eq, hword, Nat.testBit_two_pow, decide_eq_true_eq, UInt8.toNat_inj]
    constructor
    · rintro rfl
      exact ⟨rfl, hd⟩
    · exact fun h => h.1.symm
  next hd =>
    simp only [contains_empty, Bool.false_eq_true, false_iff, not_and]
    rintro rfl
    exact hd

theorem contains_foldl_union (codes : List UInt8) (m : Mask) (c : UInt8) :
    (codes.foldl (fun m code => m.union (of code)) m).contains c = true ↔
      m.contains c = true ∨ c ∈ codes ∧ c.toNat < 32 := by
  induction codes generalizing m with
  | nil => simp
  | cons d codes ih =>
    rw [List.foldl_cons, ih, contains_union, Bool.or_eq_true, contains_of, List.mem_cons]
    tauto

theorem contains_ofCodes {codes : List UInt8} :
    (ofCodes codes).contains c = true ↔ c ∈ codes ∧ c.toNat < 32 := by
  rw [ofCodes, contains_foldl_union]
  simp

theorem ofCodes_codes (m : Mask) : ofCodes m.codes = m := by
  refine eq_iff.mpr fun c => Bool.eq_iff_iff.mpr ?_
  rw [contains_ofCodes, mem_codes]
  exact and_iff_left_of_imp lt_of_contains

/-! ## One member after the other -/

theorem codes_of_next? (h : m.next? = some (c, n)) : m.codes = c :: n.codes := by
  rw [codes.eq_def]
  by_cases hzero : m.bits = 0
  · simp [next?, lowest?, isEmpty, hzero] at h
  · obtain ⟨rfl, rfl⟩ : UInt8.ofNat m.trailingZeros = c ∧ m.withoutLowest = n := by
      simpa [next?, lowest?, isEmpty, hzero] using h
    rw [dif_neg hzero]

theorem yields_codes (m : Mask) : ∃ k, Yields m m.codes k ∧ k.next? = none := by
  fun_induction codes m with
  | case1 m hzero => exact ⟨m, .nil, by simp [next?, lowest?, isEmpty, hzero]⟩
  | case2 m hbits ih =>
    obtain ⟨k, hk, hend⟩ := ih
    exact ⟨k, .cons (by simp [next?, lowest?, isEmpty, hbits]) hk, hend⟩

theorem Yields.codes_eq (h : Yields m given k) : m.codes = given ++ k.codes := by
  induction h with
  | nil => rfl
  | cons hnext _ ih => rw [codes_of_next? hnext, ih, List.cons_append]

/-- Going through the mask of any codes gives those that a mask can hold, each once and in ascending
order, and these are what the mask contains. Any mask gives as many members as it counts, of which
`lowest?` is the first, and then no more; before each of them the hint says exactly how many are still
to come; and the members together make the mask again. -/
theorem members_in_order :
    (∀ list : List UInt8,
      (∀ c, c ∈ (ofCodes list).codes ↔ c ∈ list ∧ c.toNat < 32) ∧
      (ofCodes list).codes.Pairwise (· < ·) ∧
      ∀ c, (ofCodes list).contains c = true ↔ c ∈ list ∧ c.toNat < 32) ∧
    ∀ m : Mask,
      (∃ k, Yields m m.codes k ∧ k.next? = none) ∧ m.codes.length = m.count ∧
      (∀ front k, Yields m front k →
        ∃ rest, m.codes = front ++ rest ∧ k.sizeHint = (rest.length, some rest.length)) ∧
      m.lowest? = m.codes.head? ∧ ofCodes m.codes = m := by
  refine ⟨fun list => ⟨fun c => ?_, pairwise_codes _, fun c => contains_ofCodes⟩, fun m =>
    ⟨m.yields_codes, m.length_codes, fun front k hk => ⟨k.codes, hk.codes_eq, ?_⟩,
      m.lowest?_eq_head?, m.ofCodes_codes⟩⟩
  · rw [mem_codes, contains_ofCodes]
  · rw [sizeHint, k.length_codes]

end ScopeMachine.Mask
