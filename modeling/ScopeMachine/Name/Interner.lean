import Std.Data.HashMap

/-!
# Interned names

A name is the number of a text in an interner. Texts are numbered densely in the order of their
first arrival, and the empty text is there from the start as number 0, so two names of one
interner are equal exactly if their texts are.
-/

namespace ScopeMachine

structure Name where
  index : Nat
  deriving DecidableEq, Hashable, Repr, Inhabited, Ord

namespace Name

def empty : Name := ⟨0⟩

def label (n : Name) : String := s!"Name({n.index})"

end Name

/-- How many names there are: their numbers have 32 bits. -/
def nameLimit : Nat := UInt32.size

inductive InternError where
  /-- All names are taken, by so many texts. -/
  | overflow (count : Nat)
  deriving DecidableEq, Repr

def InternError.message : InternError → String
  | overflow count => s!"interner exceeded capacity: {count} strings, max is {nameLimit - 1}"

structure Interner where
  texts : Array String
  numbers : Std.HashMap String Nat
  /-- The two directions agree, so no text is stored twice. -/
  numbers_eq_some : ∀ (s : String) (n : Nat), numbers[s]? = some n ↔ texts[n]? = some s
  /-- The empty text has number 0. -/
  texts_zero : texts[0]? = some ""

namespace Interner

def new : Interner where
  texts := #[""]
  numbers := (∅ : Std.HashMap String Nat).insert "" 0
  numbers_eq_some s n := by
    rw [Std.HashMap.getElem?_insert]
    by_cases h : s = ""
    · subst h
      cases n <;> simp
    · have h' : ¬"" = s := fun e => h e.symm
      cases n <;> simp [h']
  texts_zero := rfl

instance : Inhabited Interner := ⟨new⟩

def size (i : Interner) : Nat := i.texts.size

def get? (i : Interner) (s : String) : Option Name :=
  i.numbers[s]?.map Name.mk

/-- The text of a name; a name of some other interner may have none and is shown as unknown. -/
def text (i : Interner) (n : Name) : String :=
  i.texts[n.index]?.getD "<unknown>"

/-- The name of a text, which is added under the next number if it is new. -/
def intern (i : Interner) (s : String) : Name × Interner :=
  match h : i.numbers[s]? with
  | some n => (⟨n⟩, i)
  | none =>
    (⟨i.texts.size⟩,
      { texts := i.texts.push s
        numbers := i.numbers.insert s i.texts.size
        numbers_eq_some := by
          intro t n
          have absent : ∀ n : Nat, i.texts[n]? ≠ some s := fun n hn => by
            simp [(i.numbers_eq_some s n).2 hn] at h
          rw [Std.HashMap.getElem?_insert, Array.getElem?_push]
          by_cases hn : n = i.texts.size
          · subst hn
            by_cases hs : s = t
            · simp [hs]
            · simp [hs, i.numbers_eq_some]
          · by_cases hs : s = t
            · subst hs
              simpa [hn, eq_comm] using absent n
            · simp [hs, hn, i.numbers_eq_some]
        texts_zero := by
          have ⟨inside, eq⟩ := Array.getElem?_eq_some_iff.1 i.texts_zero
          rw [Array.getElem?_push_lt inside, eq] })

/-- The name of a text as `intern` gives it, unless the text is new and no name is left for it. -/
def tryIntern (i : Interner) (s : String) : Except InternError Name × Interner :=
  match i.get? s with
  | some n => (.ok n, i)
  | none =>
    if nameLimit ≤ i.size then (.error (.overflow i.size), i)
    else
      let (n, i) := i.intern s
      (.ok n, i)

def label (i : Interner) : String := s!"SharedInterner({i.size} strings)"

end Interner

end ScopeMachine
