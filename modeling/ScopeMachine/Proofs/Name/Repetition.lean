import Mathlib.Data.List.Induction
import ScopeMachine.Environment.Frame
import ScopeMachine.Host

/-!
# Namespaces that come again

A reference has each of its namespaces where the list it was made of has it first. The list is taken
from the front, and a namespace that was there already is passed over (`eraseDups_concat`); what the
list keeps follows from this step by induction on its end. Searches ask of a list only what is in it,
what stands first and which of two comes first, and this is kept: `repeated_namespaces_have_no_say`.
-/

namespace ScopeMachine

open List

/-! ## Lists without their repetitions -/

theorem minOn?_congr {f g : α → Nat} (h : ∀ x y, f x ≤ f y ↔ g x ≤ g y) (xs : List α) :
    xs.minOn? f = xs.minOn? g := by
  have hmin : minOn f = minOn g := by
    funext x y
    simp only [minOn, h]
  cases xs with
  | nil => rfl
  | cons x xs => simp only [List.minOn?, hmin]

section

variable {α : Type*} [DecidableEq α] {x : α}

theorem eraseDups_concat (xs : List α) (x : α) :
    (xs ++ [x]).eraseDups = if x ∈ xs then xs.eraseDups else xs.eraseDups ++ [x] := by
  rw [eraseDups_append]
  by_cases hx : x ∈ xs
  · simp [removeAll, hx]
  · simp [removeAll, hx, eraseDups_cons]

theorem nodup_eraseDups (xs : List α) : xs.eraseDups.Nodup := by
  induction xs using List.reverseRecOn with
  | nil => simp
  | append_singleton xs x ih =>
    rw [eraseDups_concat]
    split
    next => exact ih
    next hx =>
      refine nodup_append.mpr ⟨ih, by simp, ?_⟩
      rintro y hy z hz rfl
      exact hx (mem_eraseDups.mp (mem_singleton.mp hz ▸ hy))

theorem head?_eraseDups (xs : List α) : xs.eraseDups.head? = xs.head? := by
  cases xs with
  | nil => rfl
  | cons x xs => simp [eraseDups_cons]

theorem isEmpty_eraseDups (xs : List α) : xs.eraseDups.isEmpty = xs.isEmpty := by
  cases xs with
  | nil => rfl
  | cons x xs => simp [eraseDups_cons]

theorem eraseDups_append_cons_of_mem {front : List α} (hx : x ∈ front) (back : List α) :
    (front ++ x :: back).eraseDups = (front ++ back).eraseDups := by
  simp [eraseDups_append, removeAll, hx]

theorem findSome?_eraseDups (f : α → Option β) (xs : List α) :
    xs.eraseDups.findSome? f = xs.findSome? f := by
  induction xs using List.reverseRecOn with
  | nil => simp
  | append_singleton xs x ih =>
    rw [eraseDups_concat, findSome?_append]
    split
    next hx =>
      rw [ih]
      -- what was not found at the first occurrence is not found at a later one
      cases hfound : xs.findSome? f with
      | some y => rfl
      | none => simp [findSome?_eq_none_iff.mp hfound x hx]
    next => rw [findSome?_append, ih]

theorem idxOf_eraseDups_lt_iff (xs : List α) (x y : α) :
    xs.eraseDups.idxOf x < xs.eraseDups.idxOf y ↔ xs.idxOf x < xs.idxOf y := by
  induction xs using List.reverseRecOn with
  | nil => simp
  | append_singleton xs z ih =>
    have hin (w : α) (zs : List α) : w ∈ zs → zs.idxOf w < zs.length := idxOf_lt_length_of_mem
    have hout (w : α) (zs : List α) : w ∉ zs → zs.idxOf w = zs.length := idxOf_eq_length
    have hmem (w : α) : w ∈ xs.eraseDups ↔ w ∈ xs := mem_eraseDups
    rw [eraseDups_concat]
    -- what is added stands last, in both lists or in the longer one alone
    split <;> grind

/-- The entries that are none of those in front of them. -/
def firstOccurrences (xs : List α) : List α :=
  (xs.zipIdx.filter fun (x, i) => x ∉ xs.take i).map (·.1)

theorem firstOccurrences_concat (xs : List α) (x : α) :
    firstOccurrences (xs ++ [x]) =
      if x ∈ xs then firstOccurrences xs else firstOccurrences xs ++ [x] := by
  have hfront : xs.zipIdx.filter (fun (y, i) => y ∉ (xs ++ [x]).take i) =
      xs.zipIdx.filter fun (y, i) => y ∉ xs.take i := by
    refine filter_congr fun (y, i) hy => ?_
    have hlt : i < xs.length := (mem_zipIdx' hy).1
    simp only [take_append_of_le_length (Nat.le_of_lt hlt)]
  rw [firstOccurrences, zipIdx_append, filter_append, hfront, map_append]
  by_cases hx : x ∈ xs
  · simp [firstOccurrences, hx]
  · simp [firstOccurrences, hx]

theorem eraseDups_eq_firstOccurrences (xs : List α) : xs.eraseDups = firstOccurrences xs := by
  induction xs using List.reverseRecOn with
  | nil => rfl
  | append_singleton xs x ih => rw [eraseDups_concat, firstOccurrences_concat, ih]

/-- The second list is the first one with entries of it put in again, each somewhere behind where it
is already. -/
inductive Repeats : List α → List α → Prop
  | refl (xs : List α) : Repeats xs xs
  | again {xs front back : List α} (x : α) (h : Repeats xs (front ++ back)) (hx : x ∈ front) :
    Repeats xs (front ++ x :: back)

theorem Repeats.eraseDups_eq {xs ys : List α} (h : Repeats xs ys) : ys.eraseDups = xs.eraseDups := by
  induction h with
  | refl => rfl
  | again x _ hx ih => rw [eraseDups_append_cons_of_mem hx, ih]

end

/-! ## References made of such lists -/

namespace Multiname

variable (name : Name) (ns : List Name)

theorem accepts_ofNamespaces (q : QualifiedName) :
    (ofNamespaces name ns).accepts q = (⟨name, ns⟩ : Multiname).accepts q := by
  unfold accepts ofNamespaces
  cases q.qualifier with
  | none => simp only [isEmpty_eraseDups]
  | some n => simp [contains_eq_mem]

theorem declarationName_ofNamespaces :
    (ofNamespaces name ns).declarationName = (⟨name, ns⟩ : Multiname).declarationName := by
  simp only [ofNamespaces, declarationName, head?_eraseDups]

/-- Ranks change, but not which of two is the smaller one. -/
theorem rank_ofNamespaces_le_iff (q q' : QualifiedName) :
    (ofNamespaces name ns).rank q ≤ (ofNamespaces name ns).rank q' ↔
      (⟨name, ns⟩ : Multiname).rank q ≤ (⟨name, ns⟩ : Multiname).rank q' := by
  obtain ⟨qualifier, -⟩ := q
  obtain ⟨qualifier', -⟩ := q'
  cases qualifier with
  | none => simp [rank]
  | some n =>
    cases qualifier' with
    | none =>
      -- the rank 0 is that of the first namespace, which stays the first one
      cases ns with
      | nil => rfl
      | cons n' rest =>
        by_cases hn : n' = n
        · simp [rank, ofNamespaces, eraseDups_cons, hn]
        · simp [rank, ofNamespaces, eraseDups_cons, idxOf_cons, beq_false_of_ne hn]
    | some n' =>
      simp only [rank, ofNamespaces, ← Nat.not_lt, idxOf_eraseDups_lt_iff]

theorem find?_ofNamespaces (f : Frame) :
    f.find? (ofNamespaces name ns) = f.find? ⟨name, ns⟩ := by
  have hcandidates : f.candidates (ofNamespaces name ns) = f.candidates ⟨name, ns⟩ := by
    simp only [Frame.candidates, accepts_ofNamespaces]
    rfl
  rw [Frame.find?, Frame.find?, hcandidates]
  exact minOn?_congr (fun c d => rank_ofNamespaces_le_iff name ns c.2.name d.2.name) _

theorem read_ofNamespaces (t : PropertyTable) (base : Value) :
    t.read base (ofNamespaces name ns) = t.read base ⟨name, ns⟩ := by
  cases base with
  | object object =>
    simp only [PropertyTable.read, ofNamespaces, isQualified, isEmpty_eraseDups, findSome?_eraseDups]
    rfl
  | _ => rfl

/-- The reference `m` has the namespaces of the raw list, each where it comes first, and it answers
wherever it is asked as a reference with the raw list itself would. -/
structure Condenses (m : Multiname) (name : Name) (raw : List Name) : Prop where
  namespaces : m.namespaces = firstOccurrences raw
  nodup : m.namespaces.Nodup
  mem_iff : ∀ n, n ∈ m.namespaces ↔ n ∈ raw
  before_iff : ∀ n n', m.namespaces.idxOf n < m.namespaces.idxOf n' ↔ raw.idxOf n < raw.idxOf n'
  repeats : ∀ more, Repeats raw more → ofNamespaces name more = m
  accepts : ∀ q, m.accepts q = (⟨name, raw⟩ : Multiname).accepts q
  declarationName : m.declarationName = (⟨name, raw⟩ : Multiname).declarationName
  find? : ∀ f : Frame, f.find? m = f.find? ⟨name, raw⟩
  read : ∀ (t : PropertyTable) (base : Value), t.read base m = t.read base ⟨name, raw⟩

/-- Whatever list of namespaces a reference is made of, those that come again have no say: not in its
list, not in what it accepts and declares, and not in what frames and properties it finds. -/
theorem repeated_namespaces_have_no_say (name : Name) (ns : List Name) :
    (ofNamespaces name ns).Condenses name ns where
  namespaces := eraseDups_eq_firstOccurrences ns
  nodup := nodup_eraseDups ns
  mem_iff _ := mem_eraseDups
  before_iff n n' := idxOf_eraseDups_lt_iff ns n n'
  repeats more h := by rw [ofNamespaces, h.eraseDups_eq, ofNamespaces]
  accepts := accepts_ofNamespaces name ns
  declarationName := declarationName_ofNamespaces name ns
  find? := find?_ofNamespaces name ns
  read := read_ofNamespaces name ns

example : (ofNamespaces ⟨1⟩ [⟨5⟩, ⟨3⟩, ⟨5⟩, ⟨4⟩, ⟨3⟩]).namespaces = [⟨5⟩, ⟨3⟩, ⟨4⟩] := by decide

end Multiname

end ScopeMachine
