import Mathlib.Data.List.Permutation
import ScopeMachine.Proofs.Machine.Evaluation

/-!
# Interrupted runs come to the same

The flag is looked at between instructions only. `withoutStops` erases all that concerns it: the flag,
the hosts' requests for a stop and their mark in the log. A step that is not stopped does to the
erased machine what it does to the machine (`step_withoutStops`), and a step that is stopped does
nothing. So calls of `run` that are interrupted and repeated add up to one run without a flag.
-/

namespace ScopeMachine

open Instruction

/-! ## Schedules -/

/-- What bears on the flag while a machine rests between two instructions. -/
inductive Alarm where
  | request
  | clear
  /-- From now on hosts ask for a stop at these questions. What they answer stays the same. -/
  | raisedBy (asks : Host → Value → Multiname → Bool)

def Alarm.event : Alarm → Event
  | request => .request
  | clear => .clear
  | raisedBy asks => .answers fun h => { h with interrupts := asks h }

/-- The alarms before each of the steps to come, those that are stopped included. -/
abbrev Schedule := Nat → List Alarm

def Schedule.course (w : Schedule) : Course := fun k => (w k).map Alarm.event

/-- Calls `run` once for each schedule until a call is not interrupted, and lowers the flag after
each call that is: what the calls return, each with the machine it leaves. -/
def Machine.calls : List Schedule → Machine → List (Except EvalError Value × Machine)
  | [], _ => []
  | w :: later, m =>
    match m.runAmid w.course with
    | (.error (.interrupted pc), stopped) =>
      (.error (.interrupted pc), stopped) :: calls later stopped.clearInterrupt
    | final => [final]

/-! ## Erasure -/

def Host.withoutStops (h : Host) : Host := { h with interrupts := fun _ _ => false }

def Lookup.withoutStops (l : Lookup) : Lookup := { l with interrupts := false }

def Context.withoutStops (c : Context) : Context :=
  { c with
    ambient := c.ambient.map fun a => { a with host := a.host.withoutStops }
    resolver := c.resolver.map Host.withoutStops }

def Effect.withoutStops (effect : Effect) : Effect :=
  { effect with lookup := effect.lookup.map Lookup.withoutStops }

def Machine.withoutStops (m : Machine) : Machine :=
  { m with
    toContext := m.toContext.withoutStops
    interrupt := none
    lookups := m.lookups.map Lookup.withoutStops }

namespace Environment

theorem read_withoutStops (env : Environment) (m : Multiname) (phase : Phase)
    (ambient : Option Ambient) :
    env.read m phase (ambient.map fun a => { a with host := a.host.withoutStops }) =
      ⟨(env.read m phase ambient).result,
        (env.read m phase ambient).lookup.map Lookup.withoutStops⟩ := by
  unfold read
  split
  · rfl
  · cases ambient <;> rfl

end Environment

namespace Context

variable {c : Context}

@[simp] theorem unit_withoutStops (c : Context) : c.withoutStops.unit = c.unit := rfl

theorem dotRead_withoutStops (pc : Nat) (m : Multiname) (s : State) :
    c.withoutStops.dotRead pc m s = (c.dotRead pc m s).withoutStops := by
  unfold dotRead
  split
  · rfl
  next base _ =>
  cases hc : c.resolver with
  | none =>
    simp only [withoutStops, hc, Option.map_none]
    rfl
  | some host =>
    simp only [withoutStops, hc, Option.map_some, Host.withoutStops]
    cases hanswer : host.answer base m <;> rfl

theorem lexicalRead_withoutStops (m : Multiname) (s : State) :
    c.withoutStops.lexicalRead m s = (c.lexicalRead m s).withoutStops := by
  simp only [lexicalRead, withoutStops, Environment.read_withoutStops]
  cases (s.env.read m c.phase c.ambient).result <;> rfl

theorem withMultiname_withoutStops {effect effect' : Multiname → Effect}
    (h : ∀ m, effect' m = (effect m).withoutStops) (s : State) :
    c.withoutStops.withMultiname n s effect' = (c.withMultiname n s effect).withoutStops := by
  simp only [withMultiname, unit_withoutStops]
  cases c.unit.multinames.get n with
  | error e => rfl
  | ok m => exact h m

theorem execute_withoutStops (pc : Nat) (i : Instruction) (s : State) :
    c.withoutStops.execute pc i s = (c.execute pc i s).withoutStops := by
  cases i with
  | constant n =>
    simp only [execute, unit_withoutStops]
    cases c.unit.constant n <;> rfl
  | pop => rfl
  | multiname n =>
    simp only [execute]
    exact withMultiname_withoutStops (fun _ => by rfl) s
  | dotRead n => exact withMultiname_withoutStops (fun m => dotRead_withoutStops pc m s) s
  | lexicalRead n => exact withMultiname_withoutStops (fun m => lexicalRead_withoutStops m s) s
  | lexicalWrite n =>
    simp only [execute]
    exact withMultiname_withoutStops (fun _ => by rfl) s
  | lexicalAssign n =>
    simp only [execute]
    exact withMultiname_withoutStops (fun _ => by rfl) s
  | pushFrame n =>
    simp only [execute, unit_withoutStops]
    cases c.unit.templates.get n <;> rfl
  | popFrame => rfl
  | ret => rfl

end Context

/-! ## Steps -/

namespace Machine

variable {m : Machine}

@[simp] theorem toState_withoutStops (m : Machine) : m.withoutStops.toState = m.toState := rfl

@[simp] theorem pc_withoutStops (m : Machine) : m.withoutStops.pc = m.pc := rfl

theorem eq_of_withoutStops {a b : Machine} (h : a.withoutStops = b.withoutStops) :
    a.pc = b.pc ∧ a.toState = b.toState ∧
      a.lookups.map Lookup.withoutStops = b.lookups.map Lookup.withoutStops := by
  refine ⟨?_, ?_, ?_⟩
  · simpa using congrArg Machine.pc h
  · simpa using congrArg Machine.toState h
  · simpa [withoutStops] using congrArg Machine.lookups h

theorem isInterrupted_withoutStops (m : Machine) : m.withoutStops.isInterrupted = false := rfl

theorem happen_withoutStops (m : Machine) (a : Alarm) :
    (m.happen a.event).withoutStops = m.withoutStops := by
  cases a with
  | request => rfl
  | clear => rfl
  | raisedBy asks =>
    simp only [happen, Alarm.event, Context.happen, withoutStops, Context.withoutStops,
      Option.map_map]
    rfl

theorem amid_withoutStops (m : Machine) (alarms : List Alarm) :
    (m.amid (alarms.map Alarm.event)).withoutStops = m.withoutStops := by
  induction alarms generalizing m with
  | nil => rfl
  | cons a alarms ih =>
    rw [List.map_cons, amid, List.foldl_cons, ← amid, ih, happen_withoutStops]

theorem note_withoutStops (m : Machine) (l : Option Lookup) :
    m.withoutStops.note (l.map Lookup.withoutStops) = (m.note l).withoutStops := by
  simp only [note_eq, withoutStops]
  cases l <;> rfl

theorem commit_withoutStops (m : Machine) (width : Nat) (effect : Effect) :
    m.withoutStops.commit width effect.withoutStops =
      ((m.commit width effect).1, (m.commit width effect).2.withoutStops) := by
  have hnote := m.note_withoutStops effect.lookup
  simp only [commit, Effect.withoutStops, hnote]
  split <;> rfl

/-- A step that the flag does not stop is that of the machine without a flag. -/
theorem step_withoutStops (h : m.isInterrupted = false) :
    m.withoutStops.step = (m.step.1, m.step.2.withoutStops) := by
  have hunit : m.withoutStops.unit = m.unit := rfl
  simp only [step, isInterrupted_withoutStops, h, hunit, pc_withoutStops]
  split
  · contradiction
  split
  · cases decodeAt m.unit.code m.pc with
    | error e => rfl
    | ok i =>
      rw [← commit_withoutStops, ← Context.execute_withoutStops]
      rfl
  · rfl

theorem step_of_interrupted (h : m.isInterrupted = true) :
    m.step = (.error (.interrupted m.pc), m) := by
  simp [step, h]

theorem step_ne_interrupted (h : m.isInterrupted = false) :
    m.step.1 ≠ .error (.interrupted stop) := by
  unfold step
  rw [if_neg (by simp [h])]
  split
  · split
    · simp
    · rw [result_commit]
      exact fun h => Context.execute_ne_interrupted _ _ _ _ h
  · simp

/-! ## Runs -/

theorem Passes.quiet_here (m : Machine) : Passes .quiet m m := .here

theorem Passes.quiet_trans (h : Passes .quiet m mid) (h' : Passes .quiet mid last) :
    Passes .quiet m last := by
  generalize hw : Course.quiet = w at h
  induction h with
  | here =>
    subst hw
    exact h'
  | further hs _ ih =>
    subst hw
    exact .further hs (ih h' rfl)

theorem Passes.run_eq (h : Passes .quiet m last) : last.run = m.run := by
  generalize hw : Course.quiet = w at h
  induction h with
  | here =>
    subst hw
    rfl
  | @further next last _ m hs _ ih =>
    subst hw
    have hstep : m.step = (.ok .proceed, next) := hs
    rw [ih rfl, m.run_eq, hstep]

/-- After any alarms, the flag stops the machine where it is, or the step is that of the machine
without a flag. -/
theorem step_amid_withoutStops (w : Schedule) (m : Machine) :
    ((m.amid (w.course 0)).step =
        (.error (.interrupted (m.amid (w.course 0)).pc), m.amid (w.course 0)) ∧
      (m.amid (w.course 0)).withoutStops = m.withoutStops) ∨
    ((∀ pc, (m.amid (w.course 0)).step.1 ≠ .error (.interrupted pc)) ∧
      m.withoutStops.step =
        ((m.amid (w.course 0)).step.1, (m.amid (w.course 0)).step.2.withoutStops)) := by
  have herased : (m.amid (w.course 0)).withoutStops = m.withoutStops := m.amid_withoutStops (w 0)
  cases hq : (m.amid (w.course 0)).isInterrupted with
  | true => exact .inl ⟨step_of_interrupted hq, herased⟩
  | false => exact .inr ⟨fun _ => step_ne_interrupted hq, herased ▸ step_withoutStops hq⟩

/-- A call is interrupted at a point that the run without a flag passes, or it comes to what that run
comes to. -/
theorem runAmid_withoutStops (w : Schedule) (m : Machine) :
    ((m.runAmid w.course).1 = .error (.interrupted (m.runAmid w.course).2.pc) ∧
      Passes .quiet m.withoutStops (m.runAmid w.course).2.withoutStops) ∨
    ((∀ pc, (m.runAmid w.course).1 ≠ .error (.interrupted pc)) ∧
      m.withoutStops.run = ((m.runAmid w.course).1, (m.runAmid w.course).2.withoutStops)) := by
  generalize hw : w.course = course
  -- on the steps of the call, each of which is stopped or shared by both
  fun_induction runAmid course m generalizing w with
  | case1 course m e after hs =>
    subst hw
    rcases m.step_amid_withoutStops w with ⟨hstopped, herased⟩ | ⟨hne, hstep⟩
    · cases hs.symm.trans hstopped
      rw [herased]
      exact .inl ⟨rfl, .quiet_here _⟩
    · rw [hs] at hne hstep
      refine .inr ⟨?_, by rw [run_eq, hstep]⟩
      rintro pc ⟨⟩
      exact hne pc rfl
  | case2 course m v after hs =>
    subst hw
    rcases m.step_amid_withoutStops w with ⟨hstopped, -⟩ | ⟨-, hstep⟩
    · cases hs.symm.trans hstopped
    · rw [hs] at hstep
      exact .inr ⟨by simp, by rw [run_eq, hstep]⟩
  | case3 course m after hs ih =>
    subst hw
    rcases m.step_amid_withoutStops w with ⟨hstopped, -⟩ | ⟨-, hstep⟩
    · cases hs.symm.trans hstopped
    · rw [hs] at hstep
      rcases ih (fun k => w (k + 1)) rfl with ⟨he, hpasses⟩ | ⟨hne, hrun⟩
      · exact .inl ⟨he, .further hstep hpasses⟩
      · exact .inr ⟨hne, by rw [run_eq, hstep]; exact hrun⟩

theorem Passes.of_withoutStops (h : Passes .quiet m.withoutStops last) (hm : m.interrupt = none) :
    ∃ next, Passes .quiet m next ∧ next.withoutStops = last := by
  generalize hw : Course.quiet = w at h
  generalize hstart : m.withoutStops = start at h
  induction h generalizing m with
  | here =>
    subst hw hstart
    exact ⟨m, .here, rfl⟩
  | further hs _ ih =>
    subst hw hstart
    have hstep := step_withoutStops (isInterrupted_of_none hm)
    rw [show m.withoutStops.step = _ from hs] at hstep
    obtain ⟨hresult, hafter⟩ := Prod.mk.inj hstep
    obtain ⟨next, hpasses, hnext⟩ := ih (interrupt_step_of_none hm) rfl hafter.symm
    exact ⟨next, .further (Prod.ext hresult.symm rfl) hpasses, hnext⟩

theorem run_withoutStops (hm : m.interrupt = none) :
    m.withoutStops.run = (m.run.1, m.run.2.withoutStops) := by
  have hstep := step_withoutStops (isInterrupted_of_none hm)
  fun_induction run m with
  | case1 m e after hs => rw [run_eq, hstep, hs]
  | case2 m v after hs => rw [run_eq, hstep, hs]
  | case3 m after hs ih =>
    have hafter : after.interrupt = none := by
      rw [← show m.step.2 = after from congrArg Prod.snd hs]
      exact interrupt_step_of_none hm
    rw [run_eq, hstep, hs]
    exact ih hafter (step_withoutStops (isInterrupted_of_none hafter))

/-! ## Calls -/

theorem calls_cons_interrupted (h : (m.runAmid w.course).1 = .error (.interrupted stop))
    (later : List Schedule) :
    m.calls (w :: later) =
      m.runAmid w.course :: (m.runAmid w.course).2.clearInterrupt.calls later := by
  rw [calls]
  split
  next hrun => rw [hrun]
  next hne => exact (hne stop _ (Prod.ext h rfl)).elim

theorem calls_cons_final (h : ∀ pc, (m.runAmid w.course).1 ≠ .error (.interrupted pc))
    (later : List Schedule) : m.calls (w :: later) = [m.runAmid w.course] := by
  rw [calls]
  split
  next hrun => exact (h _ (congrArg Prod.fst hrun)).elim
  · rfl

theorem calls_withoutStops (ho : o ∈ m.calls schedules) :
    (o.1 = .error (.interrupted o.2.pc) ∧ Passes .quiet m.withoutStops o.2.withoutStops) ∨
      ((∀ pc, o.1 ≠ .error (.interrupted pc)) ∧ m.withoutStops.run = (o.1, o.2.withoutStops)) := by
  induction schedules generalizing m with
  | nil => cases ho
  | cons w later ih =>
    have hcall := m.runAmid_withoutStops w
    rcases hcall with ⟨he, hpasses⟩ | ⟨hne, hrun⟩
    · rw [calls_cons_interrupted he] at ho
      rcases List.mem_cons.mp ho with rfl | ho
      · exact .inl ⟨he, hpasses⟩
      · -- lowering the flag is erased: the next call goes on where this one stopped
        rcases ih ho with ⟨he', hpasses'⟩ | ⟨hne', hrun'⟩
        · exact .inl ⟨he', hpasses.quiet_trans hpasses'⟩
        · exact .inr ⟨hne', hpasses.run_eq ▸ hrun'⟩
    · rw [calls_cons_final hne] at ho
      rw [List.mem_singleton.mp ho]
      exact .inr ⟨hne, hrun⟩

/-! ## Progress -/

theorem isInterrupted_clearInterrupt (m : Machine) : m.clearInterrupt.isInterrupted = false := by
  cases hm : m.interrupt <;> simp [clearInterrupt, isInterrupted, hm, Interrupt.clear]

theorem isInterrupted_amid (h : m.isInterrupted = false) (alarms : List Alarm)
    (hquiet : .request ∉ alarms) : (m.amid (alarms.map Alarm.event)).isInterrupted = false := by
  induction alarms generalizing m with
  | nil => exact h
  | cons a alarms ih =>
    rw [List.map_cons, amid, List.foldl_cons, ← amid]
    refine ih ?_ (fun ha => hquiet (by simp [ha]))
    cases a with
    | request => simp at hquiet
    | clear => exact isInterrupted_clearInterrupt _
    | raisedBy asks => exact h

theorem Between.runAmid_error (h : m.Between front back) (he : (m.runAmid w).1 = .error e) :
    ∃ front' back', (m.runAmid w).2.Between front' back' ∧ back'.length ≤ back.length := by
  fun_induction Machine.runAmid w m generalizing front back with
  | case1 w m e' after hs =>
    have hafter := (h.amid (w 0)).step.1 e' (by rw [hs])
    rw [hs] at hafter
    exact ⟨front, back, hafter, Nat.le_refl _⟩
  | case2 => cases he
  | case3 w m after hs ih =>
    obtain ⟨i, rest, rfl, hafter⟩ := (h.amid (w 0)).step.2.1 (by rw [hs])
    rw [hs] at hafter
    obtain ⟨front', back', hstopped, hle⟩ := ih hafter he
    exact ⟨front', back', hstopped, Nat.le_succ_of_le hle⟩

/-- A call whose first step is not stopped executes an instruction before it is interrupted. -/
theorem Between.runAmid_interrupted (h : m.Between front back)
    (hq : (m.amid (w 0)).isInterrupted = false)
    (he : (m.runAmid w).1 = .error (.interrupted stop)) :
    ∃ front' back', (m.runAmid w).2.Between front' back' ∧ back'.length < back.length := by
  rw [runAmid_eq] at he ⊢
  obtain ⟨-, hproceed, -⟩ := (h.amid (w 0)).step
  rcases hs : (m.amid (w 0)).step with ⟨e | _ | v, after⟩ <;> rw [hs] at he hproceed
  · cases he
    exact absurd (congrArg Prod.fst hs) (step_ne_interrupted hq)
  · obtain ⟨i, rest, rfl, hafter⟩ := hproceed rfl
    obtain ⟨front', back', hstopped, hle⟩ := hafter.runAmid_error he
    exact ⟨front', back', hstopped, Nat.lt_succ_of_le hle⟩
  · cases he

/-- A flag that is up from the start costs one call, and each further call that is interrupted an
instruction. -/
theorem Between.calls_end (h : m.Between front back) (hquiet : ∀ w ∈ schedules, .request ∉ w 0)
    (hlength : back.length + m.isInterrupted.toNat < schedules.length) :
    ∃ o ∈ m.calls schedules, ∀ pc, o.1 ≠ .error (.interrupted pc) := by
  -- on the calls: one that is interrupted leaves less ahead, and the flag down
  induction schedules generalizing m front back with
  | nil => simp at hlength
  | cons w later ih =>
    by_cases hfinal : ∀ pc, (m.runAmid w.course).1 ≠ .error (.interrupted pc)
    · exact ⟨_, by rw [calls_cons_final hfinal]; exact List.mem_singleton_self _, hfinal⟩
    obtain ⟨pc, he⟩ := Classical.not_forall.mp hfinal
    have he := Classical.not_not.mp he
    obtain ⟨front', back', hstopped, hlt⟩ : ∃ front' back',
        (m.runAmid w.course).2.Between front' back' ∧
          back'.length < back.length + m.isInterrupted.toNat := by
      cases hq : m.isInterrupted with
      | true =>
        obtain ⟨front', back', hstopped, hle⟩ := h.runAmid_error he
        exact ⟨front', back', hstopped, Nat.lt_succ_of_le hle⟩
      | false =>
        exact h.runAmid_interrupted (isInterrupted_amid hq (w 0) (hquiet w (by simp))) he
    have hcleared := (m.runAmid w.course).2.isInterrupted_clearInterrupt
    have hlater : back'.length < later.length := by
      simp only [List.length_cons] at hlength
      omega
    obtain ⟨o, ho, hne⟩ := ih (m := (m.runAmid w.course).2.clearInterrupt) hstopped
      (fun w' hw' => hquiet w' (by simp [hw'])) (by simpa [hcleared] using hlater)
    exact ⟨o, by rw [calls_cons_interrupted he]; exact List.mem_cons_of_mem _ ho, hne⟩

theorem ofSettings_withInterrupt (u : CodeUnit) (s : Settings) (flag : Option Interrupt) :
    ofSettings u { s with interrupt := flag } =
      (ofSettings u s).map fun m => { m with interrupt := flag } := by
  have henv : ({ s with interrupt := flag } : Settings).environment u = s.environment u := rfl
  unfold ofSettings
  rw [henv]
  cases s.environment u <;> rfl

/-- For every unit and all settings, with a flag and without: whatever alarms come before the steps
and in the course of them, a call of `run` is interrupted at its position, a boundary, and in a
state that the run without a flag passes, or it comes to what that run comes to: the same result or
error, position, operands, environment and questions to hosts. And where no request comes between
a lowering of the flag and the next step, calls come to an end. -/
theorem interrupted_runs_add_up (u : CodeUnit) (s : Settings) (flag : Interrupt) :
    ∃ bare flagged, ofSettings u { s with interrupt := none } = .ok bare ∧
      ofSettings u { s with interrupt := some flag } = .ok flagged ∧
      ∀ schedules,
        (∀ o ∈ flagged.calls schedules,
          (o.1 = .error (.interrupted o.2.pc) ∧ Boundary u.code o.2.pc ∧
            ∃ next, Passes .quiet bare next ∧ next.pc = o.2.pc ∧ next.toState = o.2.toState ∧
              next.lookups.map Lookup.withoutStops = o.2.lookups.map Lookup.withoutStops) ∨
          ((∀ pc, o.1 ≠ .error (.interrupted pc)) ∧ o.1 = bare.run.1 ∧ o.2.pc = bare.run.2.pc ∧
            o.2.stack = bare.run.2.stack ∧ o.2.env = bare.run.2.env ∧
            o.2.lookups.map Lookup.withoutStops = bare.run.2.lookups.map Lookup.withoutStops)) ∧
        ((∀ w ∈ schedules, .request ∉ w 0) → bare.remaining + 1 < schedules.length →
          ∃ o ∈ flagged.calls schedules, ∀ pc, o.1 ≠ .error (.interrupted pc)) := by
  obtain ⟨bare, hok, hcontext, hpc, -, hnone⟩ := ofSettings_eq_ok u { s with interrupt := none }
  have hunit : bare.unit = u := congrArg Context.unit hcontext
  have hflagged : ofSettings u { s with interrupt := some flag } =
      .ok { bare with interrupt := some flag } := by
    have hwith := ofSettings_withInterrupt u { s with interrupt := none } (some flag)
    rwa [hok] at hwith
  have hbetween : bare.Between [] bare.unit.program := ⟨rfl, hpc⟩
  -- without the flag both machines are one, so the calls pass what the bare run passes
  have herased : ({ bare with interrupt := some flag } : Machine).withoutStops =
      bare.withoutStops := rfl
  refine ⟨bare, _, hok, hflagged, fun schedules => ⟨fun o ho => ?_, fun hquiet hlength => ?_⟩⟩
  · rcases calls_withoutStops ho with ⟨he, hpasses⟩ | ⟨hne, hrun⟩
    · rw [herased] at hpasses
      obtain ⟨next, hnext, heq⟩ := hpasses.of_withoutStops hnone
      obtain ⟨hat, hstate, hlookups⟩ := eq_of_withoutStops heq
      have hboundary := ((boundary_invariant u).passes ⟨hunit, hunit ▸ hbetween.boundary⟩ hnext).2
      exact .inl ⟨he, hat ▸ hboundary, next, hnext, hat, hstate, hlookups⟩
    · rw [herased, run_withoutStops hnone] at hrun
      obtain ⟨hresult, hafter⟩ := Prod.mk.inj hrun
      obtain ⟨hat, hstate, hlookups⟩ := eq_of_withoutStops hafter.symm
      exact .inr ⟨hne, hresult.symm, hat, congrArg State.stack hstate, congrArg State.env hstate,
        hlookups⟩
  · rw [hbetween.remaining] at hlength
    have hflag := Bool.toNat_le ({ bare with interrupt := some flag } : Machine).isInterrupted
    refine Between.calls_end (m := { bare with interrupt := some flag }) hbetween hquiet ?_
    omega

/-- The flag is up from the start, and the host raises it again while it answers: the first call is
interrupted at the start, the second one behind the read, and the third comes to what the run
without a flag comes to. -/
theorem interrupted_property_read :
    let host : Host := ⟨"host", fun _ _ => .ok (.int 7), fun _ _ => true⟩
    let s : Settings := { Settings.default with resolver := some host }
    let schedules : List Schedule := List.replicate 4 fun _ => []
    ∃ u bare flagged, u.code = (assemble [.constant 0, .dotRead 0]).toArray ∧
      ofSettings u { s with interrupt := none } = .ok bare ∧
      ofSettings u { s with interrupt := some ⟨true⟩ } = .ok flagged ∧
      (flagged.calls schedules).map (fun o => (o.1, o.2.pc)) =
        [(.error (.interrupted 0), 0), (.error (.interrupted 6), 6), (.ok (.int 7), 6)] ∧
      bare.run.1 = .ok (.int 7) ∧ bare.run.2.pc = 6 := by
  intro host s schedules
  obtain ⟨templates, hbase, hd⟩ := Draft.exists_templates .new ⟨#[⟨.empty, []⟩], by decide⟩ #[.null]
    [.constant 0, .dotRead 0] (by decide) rfl
  let u : CodeUnit := ⟨_, hd⟩
  let env : Environment := .ofBase (.instantiate 0 ⟨none, []⟩)
  have henv : Environment.ofUnit u = .ok env := by simp [Environment.ofUnit, u, hbase, env]
  let start : Machine :=
    ⟨⟨u, .default, none, some host⟩, ⟨.empty OperandStack.defaultLimit, env⟩, 0, some ⟨true⟩, []⟩
  have hstart : ofSettings u { s with interrupt := some ⟨true⟩ } = .ok start := by
    simp [ofSettings, Settings.environment, Settings.default, henv, s]
    rfl
  have hcalls : (start.calls schedules).map (fun o => (o.1, o.2.pc)) =
      [(.error (.interrupted 0), 0), (.error (.interrupted 6), 6), (.ok (.int 7), 6)] := by cbv
  obtain ⟨o, ho, hlast⟩ : ∃ o ∈ start.calls schedules, (o.1, o.2.pc) = (.ok (.int 7), 6) :=
    List.mem_map.mp (by rw [hcalls]; simp)
  obtain ⟨hvalue, hpc⟩ := Prod.mk.inj hlast
  obtain ⟨bare, flagged, hok, hflagged, h⟩ := interrupted_runs_add_up u s ⟨true⟩
  cases hstart.symm.trans hflagged
  refine ⟨u, bare, start, rfl, hok, hstart, hcalls, ?_⟩
  obtain ⟨hstopped, -⟩ | ⟨-, hresult, hend, -⟩ := (h schedules).1 o ho
  · cases hvalue.symm.trans hstopped
  · exact ⟨hresult.symm.trans hvalue, hend.symm.trans hpc⟩

end Machine

end ScopeMachine
