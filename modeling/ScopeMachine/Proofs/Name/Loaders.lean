import Mathlib.Data.List.Forall2
import ScopeMachine.LoadError
import ScopeMachine.Proofs.Name.Numbering

/-!
# What loaders come to

A loader interns some texts on the way to what it loads, or it is stopped: because no name is left,
or because it refuses something. `Outcome` says which of these it is, what is loaded or refused, and
what the interner is then. Of two loaders, one after the other, it follows from those of both
(`Outcome.bind`). A function whose loaders are stopped only for want of a name `Interns` its
arguments, and going through a list with it interns the list.
-/

namespace ScopeMachine

open Interner List

namespace Loader

/-- How loading ends that interns `texts` on the way to something of which `P` holds, and refuses
other things with errors of which `E` holds. -/
inductive Outcome (i : Interner) (texts : List String) (P : Interner → α → Prop)
    (E : Interner → LoadError → Prop) : Except LoadError α × Interner → Prop
  | ok : i.Fits texts → P (i.internAll texts) a → Outcome i texts P E (.ok a, i.internAll texts)
  | full : i.RunsOut texts j → Outcome i texts P E (.error (.intern (.overflow j.size)), j)
  | refused : front <+: texts → i.Fits front → E (i.internAll front) e →
      Outcome i texts P E (.error e, i.internAll front)

variable {l : Loader α} {f : α → Loader β} {i j : Interner} {texts : List String}
  {P : Interner → α → Prop} {Q : Interner → β → Prop} {E E' : Interner → LoadError → Prop}

/-! ## One loader after the other -/

theorem run_bind (l : Loader α) (f : α → Loader β) (i : Interner) :
    (l >>= f).run i = match l.run i with
      | (.ok a, j) => (f a).run j
      | (.error e, j) => (.error e, j) := by
  change (match l.run i with | (x, j) => (ExceptT.bindCont f x).run j) = _
  rcases l.run i with ⟨_ | _, j⟩ <;> rfl

theorem run_intern (s : String) (i : Interner) :
    (intern s).run i = ((i.tryIntern s).1.mapError .intern, (i.tryIntern s).2) := by
  have htry : run (modifyGet fun i : Interner => i.tryIntern s) i =
      (.ok (i.tryIntern s).1, (i.tryIntern s).2) := rfl
  rw [intern, run_bind, htry]
  cases (i.tryIntern s).1 <;> rfl

theorem Outcome.imp_refused (h : Outcome i texts P E r) (hE : ∀ j e, E j e → E' j e) :
    Outcome i texts P E' r := by
  cases h with
  | ok hfits ha => exact .ok hfits ha
  | full hout => exact .full hout
  | refused hfront hfits he => exact .refused hfront hfits (hE _ _ he)

theorem Outcome.size_le (h : Outcome i texts P E r) : r.2.size ≤ max i.size nameLimit := by
  cases h with
  | ok hfits => exact hfits
  | full hout => exact hout.size_le
  | refused _ hfits => exact hfits

theorem Outcome.pure (i : Interner) (h : P i a) : Outcome i [] P E (run (Pure.pure a) i) :=
  .ok (.nil i) h

theorem Outcome.bind (hl : Outcome i front P E (l.run i))
    (hf : ∀ a, P (i.internAll front) a →
      Outcome (i.internAll front) back Q E ((f a).run (i.internAll front))) :
    Outcome i (front ++ back) Q E ((l >>= f).run i) := by
  rw [run_bind]
  generalize l.run i = outcome at hl ⊢
  cases hl with
  | full hout => exact .full (hout.append back)
  | refused hfront hfits he => exact .refused (hfront.trans (prefix_append ..)) hfits he
  | @ok a hfits ha =>
    -- what is interned later comes behind what is interned already
    have hnext := hf a ha
    dsimp only
    generalize (f a).run (i.internAll front) = outcome at hnext ⊢
    cases hnext with
    | full hout => exact .full (hout.after hfits)
    | ok hfits' hb =>
      rw [← internAll_append] at hb ⊢
      exact .ok (hfits.append hfits') hb
    | refused hfront hfits' he =>
      rw [← internAll_append] at he ⊢
      exact .refused ((prefix_append_right_inj _).mpr hfront) (hfits.append hfits') he

theorem Outcome.map {g : α → β} (hl : Outcome i texts P E (l.run i))
    (hg : ∀ a, P (i.internAll texts) a → Q (i.internAll texts) (g a)) :
    Outcome i texts Q E ((l >>= fun a => Pure.pure (g a)).run i) := by
  rw [← append_nil texts]
  exact hl.bind fun a ha => .pure _ (hg a ha)

end Loader

/-! ## Functions that intern -/

/-- `f` interns the texts of an entry and makes of the entry what spells it. -/
structure Interns (texts : α → List String) (R : Interner → β → α → Prop) (f : α → Loader β) :
    Prop where
  outcome : ∀ i x, Loader.Outcome i (texts x) (R · · x) (fun _ _ => False) ((f x).run i)
  mono : ∀ ⦃i j⦄, i ≤ j → ∀ ⦃y x⦄, R i y x → R j y x

/-- As nothing is refused, anything may be said of it. -/
theorem Interns.run {texts : α → List String} {R : Interner → β → α → Prop} {f : α → Loader β}
    (hf : Interns texts R f) (i : Interner) (x : α) :
    Loader.Outcome i (texts x) (R · · x) E ((f x).run i) :=
  (hf.outcome i x).imp_refused fun _ _ h => h.elim

theorem interns_intern : Interns (fun s => [s]) Spells Loader.intern where
  outcome i s := by
    rw [Loader.run_intern]
    rcases i.tryIntern_cases s with ⟨htry, hfits⟩ | ⟨htry, hnew, hfull⟩
    · rw [htry]
      exact .ok hfits (i.intern_spells s)
    -- a text without a name is the very first one, so nothing is interned in front of it
    · rw [htry]
      exact .full ⟨hfull, [], s, prefix_rfl, .nil i, rfl, hnew⟩
  mono _ _ hij _ _ h := h.mono hij

theorem Interns.mapM {texts : α → List String} {R : Interner → β → α → Prop} {f : α → Loader β}
    (hf : Interns texts R f) :
    Interns (fun xs => xs.flatMap texts) (fun i => Forall₂ (R i)) (List.mapM f) where
  outcome i xs := by
    induction xs generalizing i with
    | nil => exact .pure i .nil
    | cons x xs ih =>
      rw [mapM_cons, flatMap_cons]
      refine (hf.outcome i x).bind fun y hy => (ih _).map fun ys hys => .cons ?_ hys
      exact hf.mono (le_internAll ..) hy
  mono _ _ hij _ _ h := h.imp fun _ _ h => hf.mono hij h

end ScopeMachine
