import ScopeMachine.Proofs.Name.Interning

/-!
# What interning adds

Interning texts one after the other adds those that are not there yet, each once, numbered on in the
order of their first occurrence (`texts_internAll`). If there are names for them, the texts `Fits`;
if there are not, the interner `RunsOut` at one of them.
-/

namespace ScopeMachine.Interner

def internAll (i : Interner) (texts : List String) : Interner :=
  texts.foldl (fun i s => (i.intern s).2) i

@[simp] theorem internAll_nil (i : Interner) : i.internAll [] = i := rfl

@[simp] theorem internAll_cons (i : Interner) (s : String) (texts : List String) :
    i.internAll (s :: texts) = (i.intern s).2.internAll texts := rfl

theorem internAll_append (i : Interner) (front back : List String) :
    i.internAll (front ++ back) = (i.internAll front).internAll back :=
  List.foldl_append

theorem le_internAll (i : Interner) (texts : List String) : i ≤ i.internAll texts := by
  induction texts generalizing i with
  | nil => exact le_rfl
  | cons s texts ih => exact (i.le_intern s).trans (ih _)

/-! ## The numbers of new texts -/

/-- The texts of the list that are not there yet, each once, where it occurs first. -/
def unknown (i : Interner) (texts : List String) : List String :=
  (texts.filter fun s => decide (s ∉ i.texts)).eraseDups

theorem texts_intern (i : Interner) (s : String) :
    (i.intern s).2.texts = if s ∈ i.texts then i.texts else i.texts.push s := by
  unfold intern
  split
  next n hn =>
    have hmem : s ∈ i.texts := Array.mem_of_getElem? ((i.numbers_eq_some ..).mp hn)
    rw [if_pos hmem]
  next hnone =>
    rw [if_neg]
    intro hmem
    obtain ⟨n, hn⟩ := Array.mem_iff_getElem?.mp hmem
    simp [(i.numbers_eq_some ..).mpr hn] at hnone

theorem texts_internAll (i : Interner) (texts : List String) :
    (i.internAll texts).texts.toList = i.texts.toList ++ i.unknown texts := by
  induction texts generalizing i with
  | nil => simp [unknown]
  | cons s texts ih =>
    rw [internAll_cons, ih]
    by_cases hs : s ∈ i.texts
    · have hsame : (i.intern s).2.texts = i.texts := by rw [texts_intern, if_pos hs]
      simp [unknown, hsame, hs]
    · -- the text that is added is struck out of those to come
      have hmore : (i.intern s).2.texts = i.texts.push s := by rw [texts_intern, if_neg hs]
      simp [unknown, hmore, hs, List.eraseDups_cons, List.filter_filter, beq_eq_decide,
        Bool.and_comm]

/-! ## Names for all texts -/

theorem size_intern_le (i : Interner) (s : String) : (i.intern s).2.size ≤ i.size + 1 := by
  have htexts := congrArg Array.size (texts_intern i s)
  rw [apply_ite Array.size, Array.size_push] at htexts
  simp only [size]
  split at htexts <;> omega

theorem size_internAll_le_add (i : Interner) (texts : List String) :
    (i.internAll texts).size ≤ i.size + texts.length := by
  induction texts generalizing i with
  | nil => exact Nat.le_refl _
  | cons s texts ih =>
    have hone := i.size_intern_le s
    have hrest := ih (i.intern s).2
    simp only [internAll_cons, List.length_cons]
    omega

/-- There are names left for those of the texts that are new. -/
def Fits (i : Interner) (texts : List String) : Prop :=
  (i.internAll texts).size ≤ max i.size nameLimit

theorem Fits.nil (i : Interner) : i.Fits [] := Nat.le_max_left ..

theorem Fits.append {i : Interner} (hfront : i.Fits front) (hback : (i.internAll front).Fits back) :
    i.Fits (front ++ back) := by
  unfold Fits at *
  rw [internAll_append]
  omega

/-- The texts get names up to some point, which leads to the interner `j`; the next text is new, and
no name is left. -/
structure RunsOut (i : Interner) (texts : List String) (j : Interner) : Prop where
  full : nameLimit ≤ j.size
  stops : ∃ front s, front ++ [s] <+: texts ∧ i.Fits front ∧ i.internAll front = j ∧
    j.get? s = none

namespace RunsOut

variable {i j : Interner} {texts more : List String}

theorem append (h : i.RunsOut texts j) (more : List String) : i.RunsOut (texts ++ more) j := by
  obtain ⟨hfull, front, s, hfront, hrest⟩ := h
  exact ⟨hfull, front, s, hfront.trans (List.prefix_append ..), hrest⟩

theorem after (hfits : i.Fits texts) (h : (i.internAll texts).RunsOut more j) :
    i.RunsOut (texts ++ more) j := by
  obtain ⟨hfull, front, s, hfront, hfitsFront, hj, hnew⟩ := h
  refine ⟨hfull, texts ++ front, s, ?_, hfits.append hfitsFront, ?_, hnew⟩
  · rw [List.append_assoc]
    exact (List.prefix_append_right_inj _).mpr hfront
  · rw [internAll_append, hj]

/-- If the texts were all interned nevertheless, there would be more of them than names. -/
theorem size_lt (h : i.RunsOut texts j) : max i.size nameLimit < (i.internAll texts).size := by
  obtain ⟨hfull, front, s, ⟨back, rfl⟩, -, rfl, hnew⟩ := h
  -- the text that gets no name and those behind it would all come on top
  have hless := size_mono (i.le_internAll front)
  have hmore := size_mono (((i.internAll front).intern s).2.le_internAll back)
  rw [size_intern_of_get?_eq_none hnew] at hmore
  rw [internAll_append, internAll_append, internAll_cons, internAll_nil]
  omega

theorem size_le (h : i.RunsOut texts j) : j.size ≤ max i.size nameLimit := by
  obtain ⟨-, front, s, -, hfits, rfl, -⟩ := h
  exact hfits

theorem not_fits (h : i.RunsOut texts j) : ¬i.Fits texts := Nat.not_le.mpr h.size_lt

end RunsOut

end ScopeMachine.Interner
