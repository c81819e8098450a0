import ScopeMachine.Machine.Settings
import ScopeMachine.Proofs.Code.Twins
import ScopeMachine.Proofs.Machine.Stepping
import ScopeMachine.Proofs.Name.History

/-!
# Machines that differ in the numbers of their names only

Operands hold no names, so the operands of twin machines are the same, not only twins. One step
leaves twins and comes to the same or fails alike (`Machine.Twins.step`); so do any number of steps
and the run. What the interner held when a unit was loaded is therefore of no consequence.
-/

namespace ScopeMachine

open Interner List

structure State.Twins (i j : Interner) (s t : State) : Prop where
  stack : s.stack = t.stack
  env : s.env.Twins i j t.env

structure ChangeTwins (i j : Interner) (c d : Except EvalError Unit × State) : Prop where
  result : ExceptRel (EvalError.Alike i j) Eq c.1 d.1
  state : c.2.Twins i j d.2

/-- The same of effects, which ask no host. -/
structure Effect.Twins (i j : Interner) (e f : Effect) : Prop where
  result : ExceptRel (EvalError.Alike i j) Eq e.result f.result
  state : e.state.Twins i j f.state
  lookup : e.lookup = none ∧ f.lookup = none

/-- No host answers in either context. -/
structure Context.Twins (i j : Interner) (c d : Context) : Prop where
  unit : c.unit.toDraft.Twins i j d.unit.toDraft
  phase : c.phase = d.phase
  ambient : c.ambient = none ∧ d.ambient = none
  resolver : c.resolver = none ∧ d.resolver = none

structure Machine.Twins (i j : Interner) (m n : Machine) : Prop where
  context : m.toContext.Twins i j n.toContext
  state : m.toState.Twins i j n.toState
  pc : m.pc = n.pc
  interrupt : m.interrupt = none ∧ n.interrupt = none

variable {i j : Interner}

/-! ## Changes of the state -/

namespace State.Twins

variable {s t : State}

theorem push (h : s.Twins i j t) (v : Value) : ChangeTwins i j (s.push v) (t.push v) := by
  obtain ⟨stack, env⟩ := s
  obtain ⟨stack', env'⟩ := t
  obtain ⟨rfl, henv⟩ := h
  unfold State.push OperandStack.push
  by_cases hroom : stack.size < stack.limit
  · simp only [hroom, if_true]
    exact ⟨.ok rfl, rfl, henv⟩
  · simp only [hroom, if_false]
    exact ⟨.error (.operandStackOverflow _), rfl, henv⟩

theorem drop (h : s.Twins i j t) (pc : Nat) : ChangeTwins i j (s.drop pc) (t.drop pc) := by
  obtain ⟨⟨values, limit, size, hsize⟩, env⟩ := s
  obtain ⟨stack', env'⟩ := t
  obtain ⟨rfl, henv⟩ := h
  cases values with
  | nil => exact ⟨.error (.operandStackUnderflow pc), rfl, henv⟩
  | cons v rest => exact ⟨.ok rfl, rfl, henv⟩

theorem writeTop (h : s.Twins i j t) (pc : Nat) (hm : Multiname.Twins i j m n) (declares : Bool) :
    ChangeTwins i j (s.writeTop pc m declares) (t.writeTop pc n declares) := by
  unfold State.writeTop
  rw [← h.stack]
  cases s.stack.top? with
  | none => exact ⟨.error (.operandStackUnderflow pc), h⟩
  | some v =>
    have hwrite := h.env.write hm v declares
    -- all that matters of the two writes is how they are related
    simp only
    generalize s.env.write m v declares = x at hwrite ⊢
    generalize t.env.write n v declares = y at hwrite ⊢
    cases hwrite with
    | error he => exact ⟨.error he, h⟩
    | ok henv => exact ⟨.ok rfl, rfl, henv⟩

theorem leave (h : s.Twins i j t) : ChangeTwins i j s.leave t.leave := by
  have hpop := h.env.pop
  unfold State.leave
  generalize s.env.pop = x at hpop ⊢
  generalize t.env.pop = y at hpop ⊢
  cases hpop with
  | error he => exact ⟨.error he, h⟩
  | ok henv => exact ⟨.ok rfl, h.stack, henv⟩

theorem takeResult (h : s.Twins i j t) :
    s.takeResult.1 = t.takeResult.1 ∧ s.takeResult.2.Twins i j t.takeResult.2 := by
  obtain ⟨⟨values, limit, size, hsize⟩, env⟩ := s
  obtain ⟨stack', env'⟩ := t
  obtain ⟨rfl, henv⟩ := h
  cases values with
  | nil => exact ⟨rfl, rfl, henv⟩
  | cons v rest => exact ⟨rfl, rfl, henv⟩

end State.Twins

/-! ## Instructions -/

theorem ChangeTwins.effect (h : ChangeTwins i j c d) :
    Effect.Twins i j (.ofChange c none) (.ofChange d none) := by
  obtain ⟨r, s⟩ := c
  obtain ⟨r', t⟩ := d
  obtain ⟨hresult, hstate⟩ := h
  cases hresult with
  | error he => exact ⟨.error he, hstate, rfl, rfl⟩
  | ok => exact ⟨.ok rfl, hstate, rfl, rfl⟩

theorem State.Twins.fail (h : State.Twins i j s t) (he : EvalError.Alike i j e f) :
    Effect.Twins i j (.fail e s) (.fail f t) :=
  ⟨.error he, h, rfl, rfl⟩

namespace Context.Twins

variable {c d : Context} {s t : State}

theorem withMultiname (h : c.Twins i j d) (hs : s.Twins i j t)
    {effect effect' : Multiname → Effect}
    (heffect : ∀ m n, Multiname.Twins i j m n → (effect m).Twins i j (effect' n)) :
    (c.withMultiname k s effect).Twins i j (d.withMultiname k t effect') := by
  have hk := h.unit.multiname k
  unfold Context.withMultiname
  generalize c.unit.multinames.get k = x at hk ⊢
  generalize d.unit.multinames.get k = y at hk ⊢
  cases hk with
  | error he => exact hs.fail (.malformed he)
  | ok hmn => exact heffect _ _ hmn

theorem dotRead (h : c.Twins i j d) (hs : s.Twins i j t) (pc : Nat)
    (hm : Multiname.Twins i j m n) :
    (c.dotRead pc m s).Twins i j (d.dotRead pc n t) := by
  unfold Context.dotRead
  rw [← hs.stack, h.resolver.1, h.resolver.2]
  cases s.stack.top? with
  | none => exact hs.fail (.operandStackUnderflow pc)
  | some v => exact hs.fail (.unresolvedBinding hm.toText)

theorem lexicalRead (h : c.Twins i j d) (hs : s.Twins i j t) (hm : Multiname.Twins i j m n) :
    (c.lexicalRead m s).Twins i j (d.lexicalRead n t) := by
  have hread := hs.env.read hm d.phase
  simp only [Context.lexicalRead, h.phase, h.ambient.1, h.ambient.2, Environment.lookup_read]
  generalize (s.env.read m d.phase none).result = x at hread ⊢
  generalize (t.env.read n d.phase none).result = y at hread ⊢
  cases hread with
  | error he => exact ⟨.error he, hs, rfl, rfl⟩
  | ok hv =>
    cases hv
    exact (hs.push _).effect

theorem execute (h : c.Twins i j d) (hs : s.Twins i j t) (pc : Nat) (o : Instruction) :
    (c.execute pc o s).Twins i j (d.execute pc o t) := by
  cases o with
  | constant n =>
    have hn := h.unit.constant n
    simp only [Context.execute]
    generalize c.unit.constant n = x at hn ⊢
    generalize d.unit.constant n = y at hn ⊢
    cases hn with
    | error he => exact hs.fail (.malformed he)
    | ok hkl =>
      simp only [h.unit.left, h.unit.right, hkl.ofConstant]
      exact (hs.push _).effect
  | pop => exact (hs.drop pc).effect
  | multiname n => exact h.withMultiname hs fun _ _ _ => (hs.push _).effect
  | dotRead n => exact h.withMultiname hs fun _ _ hm => h.dotRead hs pc hm
  | lexicalRead n => exact h.withMultiname hs fun _ _ hm => h.lexicalRead hs hm
  | lexicalWrite n => exact h.withMultiname hs fun _ _ hm => (hs.writeTop pc hm true).effect
  | lexicalAssign n => exact h.withMultiname hs fun _ _ hm => (hs.writeTop pc hm false).effect
  | pushFrame n =>
    have hn := h.unit.template n
    simp only [Context.execute]
    generalize c.unit.templates.get n = x at hn ⊢
    generalize d.unit.templates.get n = y at hn ⊢
    cases hn with
    | error he => exact hs.fail (.malformed he)
    | ok htu =>
      exact ChangeTwins.effect ⟨.ok rfl, hs.stack, hs.env.push n htu⟩
  | popFrame => exact hs.leave.effect
  | ret =>
    obtain ⟨hv, hstate⟩ := hs.takeResult
    exact ⟨.ok (congrArg Step.finished hv), hstate, rfl, rfl⟩

end Context.Twins

/-! ## Steps and runs -/

theorem Instruction.report_of_decodeAt (h : decodeAt code a = .error e) : e.report i = .plain e := by
  unfold decodeAt at h
  split at h
  · cases h
    rfl
  · split at h
    · cases h
      rfl
    · split at h
      · split at h
        · cases h
        · cases h
          rfl
      · cases h

namespace Machine

variable {m n : Machine}

theorem Twins.commit (h : m.Twins i j n) (width : Nat) (heffect : Effect.Twins i j e f) :
    ExceptRel (EvalError.Alike i j) Eq (m.commit width e).1 (n.commit width f).1 ∧
      (m.commit width e).2.Twins i j (n.commit width f).2 := by
  obtain ⟨result, state, lookup⟩ := e
  obtain ⟨result', state', lookup'⟩ := f
  obtain ⟨hresult, hstate, rfl, rfl⟩ := heffect
  cases hresult with
  | error he => exact ⟨.error he, h.context, hstate, h.pc, h.interrupt⟩
  | @ok o o' ho =>
    cases ho
    cases o with
    | proceed => exact ⟨.ok rfl, h.context, hstate, congrArg (· + width) h.pc, h.interrupt⟩
    | finished v =>
      exact ⟨.ok rfl, h.context, hstate, congrArg Array.size h.context.unit.code, h.interrupt⟩

theorem Twins.step (h : m.Twins i j n) :
    ExceptRel (EvalError.Alike i j) Eq m.step.1 n.step.1 ∧ m.step.2.Twins i j n.step.2 := by
  unfold Machine.step
  simp only [isInterrupted_of_none h.interrupt.1, isInterrupted_of_none h.interrupt.2,
    Bool.false_eq_true, if_false, h.context.unit.code, h.pc]
  split
  · cases hi : Instruction.decodeAt n.unit.code n.pc with
    | error e =>
      have he : e.report i = e.report j := by
        rw [Instruction.report_of_decodeAt hi, Instruction.report_of_decodeAt hi]
      exact ⟨.error (.malformed he), h⟩
    | ok o => exact h.commit o.width (h.context.execute h.state n.pc o)
  · refine ⟨.ok (congrArg Step.finished ?_), h⟩
    rw [State.peekResult, h.state.stack, State.peekResult]

theorem Twins.step_eq (h : m.Twins i j n) (hm : m.step = (x, m')) :
    ∃ y n', n.step = (y, n') ∧ ExceptRel (EvalError.Alike i j) Eq x y ∧ m'.Twins i j n' := by
  obtain ⟨hresult, hafter⟩ := h.step
  rw [hm] at hresult hafter
  exact ⟨_, _, rfl, hresult, hafter⟩

theorem Twins.run (h : m.Twins i j n) :
    ExceptRel (EvalError.Alike i j) Eq m.run.1 n.run.1 ∧ m.run.2.Twins i j n.run.2 := by
  -- as the steps come to the same, the one run goes as far as the other
  induction m using Machine.run.induct generalizing n with
  | case1 m e m' hm =>
    obtain ⟨_, n', hn, he, hafter⟩ := h.step_eq hm
    -- related results are of one kind, so the other run fails here as well
    cases he with
    | error he =>
      rw [run_eq m, run_eq n, hm, hn]
      exact ⟨.error he, hafter⟩
  | case2 m v m' hm =>
    obtain ⟨_, n', hn, ho, hafter⟩ := h.step_eq hm
    cases ho with
    | ok ho =>
      subst ho
      rw [run_eq m, run_eq n, hm, hn]
      exact ⟨.ok rfl, hafter⟩
  | case3 m m' hm ih =>
    obtain ⟨_, n', hn, ho, hafter⟩ := h.step_eq hm
    cases ho with
    | ok ho =>
      subst ho
      rw [run_eq m, run_eq n, hm, hn]
      exact ih hafter

def steps (m : Machine) : Nat → Machine
  | 0 => m
  | k + 1 => m.step.2.steps k

theorem Twins.steps (h : m.Twins i j n) (k : Nat) : (m.steps k).Twins i j (n.steps k) := by
  induction k generalizing m n with
  | zero => exact h
  | succ k ih => exact ih h.step.2

/-- The machine that runs a unit from its own base frame, without a host and without a flag. -/
def alone (u : CodeUnit) (phase : Phase) (policy : Policy) (limit : Nat) :
    Except EvalError Machine :=
  ofSettings u (.ofList [.phase phase, .policy policy, .stackLimit limit])

theorem alone_eq {u : CodeUnit} (ht : u.templates.get u.base = .ok t) (phase : Phase)
    (policy : Policy) (limit : Nat) : alone u phase policy limit = .ok
      { unit := u, phase, ambient := none, resolver := none, stack := .empty limit
        env := (Environment.ofBase (.instantiate u.base t)).withPolicy policy
        pc := 0, interrupt := none, lookups := [] } := by
  simp [alone, ofSettings, Settings.environment, Environment.ofUnit, Settings.ofList,
    Settings.apply, Settings.default, ht]

theorem twins_alone {u v : CodeUnit} (h : u.toDraft.Twins i j v.toDraft) (phase : Phase)
    (policy : Policy) (limit : Nat) :
    ∃ m n, alone u phase policy limit = .ok m ∧ alone v phase policy limit = .ok n ∧
      m.Twins i j n := by
  obtain ⟨t, ht⟩ := u.exists_base
  obtain ⟨t', ht'⟩ := v.exists_base
  have hbase := h.template u.base
  -- both units have a base template, and these are twins
  rw [ht, h.base, ht'] at hbase
  cases hbase with
  | ok htemplate =>
    refine ⟨_, _, alone_eq ht .., alone_eq ht' .., ?_, ⟨rfl, ?_⟩, rfl, rfl, rfl⟩
    · exact ⟨h, rfl, ⟨rfl, rfl⟩, rfl, rfl⟩
    · have hframe := Frame.twins_instantiate u.base htemplate
      rw [h.base] at hframe ⊢
      exact (Environment.twins_ofBase hframe).withPolicy policy

/-! ## What is seen of a machine -/

/-- Two results are the same, or they are errors that tell the same, each read with the interner of
its machine. -/
def SameResult (m n : Machine) : Except EvalError α → Except EvalError α → Prop :=
  ExceptRel (fun e f => EvalError.Alike m.unit.interner n.unit.interner e f ∧
    e.message m.unit.interner = f.message n.unit.interner) Eq

/-- Two machines cannot be told apart by their positions, their operands, the sizes of their frames,
and what the next step or the whole run comes to. -/
structure LooksLike (m n : Machine) : Prop where
  pc : m.pc = n.pc
  operands : m.stack.values = n.stack.values
  depth : m.env.depth = n.env.depth
  sizes : m.env.frames.map Frame.size = n.env.frames.map Frame.size
  step : m.SameResult n m.step.1 n.step.1
  run : m.SameResult n m.run.1 n.run.1

theorem Twins.sameResult (h : m.Twins i j n) {x y : Except EvalError α}
    (hxy : ExceptRel (EvalError.Alike i j) Eq x y) : m.SameResult n x y := by
  rw [SameResult, h.context.unit.left, h.context.unit.right]
  exact hxy.imp fun _ _ he => ⟨he, he.message⟩

theorem Twins.looksLike (h : m.Twins i j n) : m.LooksLike n where
  pc := h.pc
  operands := congrArg OperandStack.values h.state.stack
  depth := h.state.env.depth
  sizes := h.state.env.sizes
  step := h.sameResult h.step.1
  run := h.sameResult h.run.1

end Machine

namespace CodeUnit

/-- An image fares alike with two interners: it is refused with both for the same reason, or it is
loaded with both; and then the units have the same listing, and machines that run them cannot be
told apart after any number of steps. -/
inductive LoadsAlike (i j : Interner) (image : Image) : Prop where
  | refused (hi : (load i image).1 = .error e) (hj : (load j image).1 = .error f)
      (report : e.report (load i image).2 = f.report (load j image).2)
      (message : e.message (load i image).2 = f.message (load j image).2)
  | loaded (hi : (load i image).1 = .ok u) (hj : (load j image).1 = .ok v)
      (listing : u.listing = v.listing)
      (machines : ∀ phase policy limit, ∃ m n, Machine.alone u phase policy limit = .ok m ∧
        Machine.alone v phase policy limit = .ok n ∧ ∀ k, (m.steps k).LooksLike (n.steps k))

/-- Whatever else two interners hold, any image fares alike with them, unless one of them, and not
the other, has no name left for a text of the image. -/
theorem load_forgets_interned (hsize : i.size ≤ nameLimit) (hsize' : j.size ≤ nameLimit)
    (hout : OutOfNames i image ↔ OutOfNames j image) : LoadsAlike i j image := by
  rcases load_cases i image with hi | ⟨u, hu, haccepted⟩ | ⟨e, he, hrefused⟩
  · exact .refused (hi.error_eq hsize) ((hout.mp hi).error_eq hsize') rfl rfl
  all_goals rcases load_cases j image with hj | ⟨v, hv, haccepted'⟩ | ⟨f, hf, hrefused'⟩
  -- whether an image is sound is said of its texts, so the other interner has the same to say
  · exact .refused ((hout.mpr hj).error_eq hsize) (hj.error_eq hsize') rfl rfl
  · have htwins := twins_of_load hu hv
    refine .loaded hu hv (listing_of_twins htwins) fun phase policy limit => ?_
    obtain ⟨m, n, hm, hn, hmn⟩ := Machine.twins_alone htwins phase policy limit
    exact ⟨m, n, hm, hn, fun k => (hmn.steps k).looksLike⟩
  · exact absurd haccepted.sound hrefused'.not_sound
  · exact .refused ((hout.mpr hj).error_eq hsize) (hj.error_eq hsize') rfl rfl
  · exact absurd haccepted'.sound hrefused.not_sound
  · have hreport := (hrefused.refused_iff _).mp ((hrefused'.refused_iff _).mpr rfl)
    exact .refused he hf hreport (LoadError.message_of_report hreport)

end CodeUnit

/-- The interner that holds, besides the empty text, the texts of up to `n` times the letter x. -/
def Interner.filled (n : Nat) : Interner :=
  .internAll .new ((List.range n).map fun k => String.ofList (List.replicate (k + 1) 'x'))

theorem Interner.size_filled (n : Nat) : (filled n).size = n + 1 := by
  have hinj : Function.Injective fun k => String.ofList (List.replicate (k + 1) 'x') := by
    intro k l h
    have hlength := congrArg (fun s => s.toList.length) h
    simpa using hlength
  have hnodup := (List.nodup_range (n := n)).map hinj
  rw [filled, size_internAll_new, Finset.card_insert_of_notMem, List.toFinset_card_of_nodup hnodup]
  · simp
  · simp [← String.toList_inj]

theorem Interner.get?_filled (n : Nat) : (filled n).get? "y" = none := by
  rw [get?_eq_none_iff, filled, texts_internAll_new]
  simp [← String.toList_inj, List.replicate_succ]

/-- To an image that needs one name, an interner with one name left is as good as a new one. -/
theorem CodeUnit.last_name_is_enough :
    let image : Image := ⟨[⟨"y", []⟩], [⟨none, []⟩], [], 0, []⟩
    (Interner.filled 4294967294).size + 1 = nameLimit ∧
      LoadsAlike .new (.filled 4294967294) image := by
  intro image
  have hsize := Interner.size_filled 4294967294
  have hlimit : nameLimit = 4294967296 := rfl
  have hnew : Interner.new.size = 1 := rfl
  have htexts : image.texts.length = 1 := rfl
  generalize Interner.filled 4294967294 = j at hsize ⊢
  have hi : ¬OutOfNames .new image := not_outOfNames_of_few (by omega)
  have hj : ¬OutOfNames j image := not_outOfNames_of_few (by omega)
  exact ⟨by omega, load_forgets_interned (by omega) (by omega) (iff_of_false hi hj)⟩

/-- With an interner that has given all its names, an image is refused that is loaded with a new one. -/
theorem CodeUnit.full_interner_refuses_a_name :
    let image : Image := ⟨[⟨"y", []⟩], [⟨none, []⟩], [], 0, []⟩
    (Interner.filled 4294967295).size = 4294967296 ∧ (∃ u, (load .new image).1 = .ok u) ∧
      (load (.filled 4294967295) image).1 = .error (.intern (.overflow 4294967296)) ∧
      ¬LoadsAlike .new (.filled 4294967295) image := by
  intro image
  have hsound : Image.Sound ⟨[⟨"y", []⟩], [⟨none, []⟩], [], 0, Instruction.assemble []⟩ :=
    Image.sound_of_empty_frame (by decide) (by decide) (by simp)
  have hsize := Interner.size_filled 4294967295
  have hnew := Interner.get?_filled 4294967295
  generalize Interner.filled 4294967295 = i at hsize hnew ⊢
  obtain ⟨u, hu⟩ : ∃ u, (load .new image).1 = .ok u := exists_load_of_sound hsound (by decide)
  have hrefused : (load i image).1 = .error (.intern (.overflow 4294967296)) := by
    have htexts : image.texts = ["y"] := rfl
    have hlimit : nameLimit = 4294967296 := rfl
    rcases load_cases i image with hout | ⟨u, hu, -⟩ | ⟨e, -, he⟩
    · rw [hout.error_eq (by omega), hlimit]
    · have hfits := ((exists_load_iff i image).mp ⟨u, hu⟩).2
      have hmore := Interner.size_intern_of_get?_eq_none hnew
      rw [Interner.Fits, htexts, Interner.internAll_cons, Interner.internAll_nil] at hfits
      omega
    · exact absurd hsound he.not_sound
  refine ⟨hsize, ⟨u, hu⟩, hrefused, fun halike => ?_⟩
  cases halike with
  | refused hi => cases hi.symm.trans hu
  | loaded _ hj => cases hj.symm.trans hrefused

end ScopeMachine
