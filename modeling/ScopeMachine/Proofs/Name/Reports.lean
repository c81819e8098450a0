import ScopeMachine.EvalError

/-!
# Errors as they are reported

An error keeps the names it is about as they are numbered in one interner. Whoever is told of it
reads their texts: two errors, each with its interner, are alike if they are of one kind and agree
in all they tell. Alike errors have the same message and the same category.
-/

namespace ScopeMachine

def QualifiedName.texts (i : Interner) (q : QualifiedName) : Option String × String :=
  (q.qualifier.map i.text, i.text q.name)

theorem QualifiedName.toText_of_texts {q r : QualifiedName} (h : q.texts i = r.texts j) :
    q.toText i = r.toText j := by
  obtain ⟨own, n⟩ := q
  obtain ⟨own', m⟩ := r
  obtain ⟨hown, hname⟩ := Prod.ext_iff.mp h
  cases own <;> cases own' <;> simp_all [texts, toText]

namespace LoadError

/-- An error of loading as it is reported: a slot is named by its texts. -/
inductive Report where
  | duplicateSlot (frame : Nat) (slot : Option String × String)
  | plain (e : LoadError)

def report (i : Interner) : LoadError → Report
  | .duplicateSlot frame q => .duplicateSlot frame (q.texts i)
  | e => .plain e

theorem message_of_report (h : report i e = report j f) : e.message i = f.message j := by
  cases e with
  | duplicateSlot frame q =>
    cases f with
    | duplicateSlot frame' r =>
      obtain ⟨rfl, htexts⟩ := Report.duplicateSlot.inj h
      unfold message
      dsimp only
      rw [QualifiedName.toText_of_texts htexts]
    | _ => cases h
  | _ =>
    cases f with
    | duplicateSlot => cases h
    | _ => cases h <;> rfl

end LoadError

namespace EvalError

inductive Alike (i j : Interner) : EvalError → EvalError → Prop
  | unresolvedBinding : m.toText i = n.toText j →
      Alike i j (.unresolvedBinding m) (.unresolvedBinding n)
  | usedBeforeInitialization : m.toText i = n.toText j →
      Alike i j (.usedBeforeInitialization m) (.usedBeforeInitialization n)
  | immutableBinding : q.toText i = r.toText j →
      Alike i j (.immutableBinding q) (.immutableBinding r)
  | operandStackOverflow (limit) :
      Alike i j (.operandStackOverflow limit) (.operandStackOverflow limit)
  | interrupted (pc) : Alike i j (.interrupted pc) (.interrupted pc)
  | malformed : cause.report i = cause'.report j → Alike i j (.malformed cause) (.malformed cause')
  | operandStackUnderflow (pc) :
      Alike i j (.operandStackUnderflow pc) (.operandStackUnderflow pc)
  | frameUnderflow : Alike i j .frameUnderflow .frameUnderflow

theorem Alike.message (h : Alike i j e f) : e.message i = f.message j := by
  cases h with
  | unresolvedBinding h => exact congrArg ("unresolved binding: " ++ ·) h
  | usedBeforeInitialization h => exact congrArg ("binding used before initialization: " ++ ·) h
  | immutableBinding h => exact congrArg ("cannot assign to immutable binding: " ++ ·) h
  | malformed h => exact congrArg ("malformed code unit: " ++ ·) (LoadError.message_of_report h)
  | _ => rfl

theorem Alike.category (h : Alike i j e f) : e.category = f.category := by
  cases h <;> rfl

end EvalError

end ScopeMachine
