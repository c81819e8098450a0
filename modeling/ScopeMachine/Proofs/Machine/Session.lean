import ScopeMachine.Machine.Run
import ScopeMachine.Machine.Settings

/-!
# Sessions

What a machine goes through in the hands of a host: steps and runs, changes that the host makes
between them, and events that come while a run is under way. `runAmid` is a run amid such events;
without any it is `run` (`runAmid_quiet`).
-/

namespace ScopeMachine

/-- What may happen outside a machine while it rests between two instructions. -/
inductive Event where
  | request
  | clear
  /-- Hosts answer in another way from now on. An instruction asks one question at most, so this
  is all that is seen of a host with a state of its own. -/
  | answers (change : Host → Host)

/-- What happens before each of the steps to come, the next one being number 0. -/
abbrev Course := Nat → List Event

namespace Course

def quiet : Course := fun _ => []

def later (w : Course) : Course := fun k => w (k + 1)

@[simp] theorem later_quiet : quiet.later = quiet := rfl

end Course

def Context.happen (c : Context) : Event → Context
  | .request | .clear => c
  | .answers change =>
    { c with
      ambient := c.ambient.map fun a => { a with host := change a.host }
      resolver := c.resolver.map change }

def Context.amid (c : Context) (events : List Event) : Context := events.foldl happen c

@[simp] theorem Context.unit_amid (c : Context) (events : List Event) :
    (c.amid events).unit = c.unit := by
  induction events generalizing c with
  | nil => rfl
  | cons e events ih =>
    rw [amid, List.foldl_cons, ← amid, ih]
    cases e <;> rfl

namespace Machine

def happen (m : Machine) (e : Event) : Machine :=
  let m := { m with toContext := m.toContext.happen e }
  match e with
  | .request => m.requestInterrupt
  | .clear => m.clearInterrupt
  | .answers _ => m

def amid (m : Machine) (events : List Event) : Machine := events.foldl happen m

@[simp] theorem amid_nil (m : Machine) : m.amid [] = m := rfl

/-- Events touch the context and the flag and nothing else. -/
theorem amid_eq (m : Machine) (events : List Event) :
    ∃ flag, m.amid events =
      { m with toContext := m.toContext.amid events, interrupt := flag } ∧
        flag.isSome = m.interrupt.isSome := by
  induction events generalizing m with
  | nil => exact ⟨m.interrupt, rfl, rfl⟩
  | cons e events ih =>
    obtain ⟨flag, heq, hsome⟩ := ih (m.happen e)
    refine ⟨flag, ?_, ?_⟩
    · rw [amid, List.foldl_cons, ← amid, heq]
      cases e <;> rfl
    · rw [hsome]
      cases e <;> simp [happen, requestInterrupt, clearInterrupt]

@[simp] theorem toContext_amid (m : Machine) (events : List Event) :
    (m.amid events).toContext = m.toContext.amid events := by
  obtain ⟨flag, heq, -⟩ := m.amid_eq events
  rw [heq]

theorem unit_amid (m : Machine) (events : List Event) : (m.amid events).unit = m.unit := by
  simp

@[simp] theorem toState_amid (m : Machine) (events : List Event) :
    (m.amid events).toState = m.toState := by
  obtain ⟨flag, heq, -⟩ := m.amid_eq events
  rw [heq]

@[simp] theorem pc_amid (m : Machine) (events : List Event) : (m.amid events).pc = m.pc := by
  obtain ⟨flag, heq, -⟩ := m.amid_eq events
  rw [heq]

/-- Runs to the end, to the first return or to the first error, while the course of events takes
its way: the events before a step come just before it. -/
def runAmid (w : Course) (m : Machine) : Except EvalError Value × Machine :=
  match _ : (m.amid (w 0)).step with
  | (.error e, after) => (.error e, after)
  | (.ok (.finished v), after) => (.ok v, after)
  | (.ok .proceed, after) => after.runAmid w.later
  termination_by m.unit.code.size - m.pc
  decreasing_by
    have stepped : (m.amid (w 0)).step = (.ok .proceed, after) := by assumption
    have ⟨inside, forward, same⟩ := pc_lt_of_step stepped
    simp only [toContext_amid, Context.unit_amid, pc_amid] at inside forward same
    rw [same]
    omega

theorem runAmid_eq (w : Course) (m : Machine) :
    m.runAmid w = match (m.amid (w 0)).step with
      | (.error e, after) => (.error e, after)
      | (.ok (.finished v), after) => (.ok v, after)
      | (.ok .proceed, after) => after.runAmid w.later := by
  rw [runAmid]
  split <;> simp_all

theorem runAmid_quiet (m : Machine) : m.runAmid .quiet = m.run := by
  fun_induction run m with
  | case1 m e after h => simp [runAmid_eq, Course.quiet, h]
  | case2 m v after h => simp [runAmid_eq, Course.quiet, h]
  | case3 m after h ih =>
    rw [runAmid_eq]
    simpa [Course.quiet, h] using ih

/-- The run, if it takes no more than that many steps. -/
def runWithin : Nat → Course → Machine → Option (Except EvalError Value × Machine)
  | 0, _, _ => none
  | steps + 1, w, m =>
    match (m.amid (w 0)).step with
    | (.error e, after) => some (.error e, after)
    | (.ok (.finished v), after) => some (.ok v, after)
    | (.ok .proceed, after) => runWithin steps w.later after

end Machine

inductive Operation where
  | step
  /-- A run, and what happens in the course of it. -/
  | run (course : Course)
  | rewind
  | phase (phase : Phase)
  | event (event : Event)
  /-- The host reaches into the environment. -/
  | env (change : Environment → Environment)

namespace Machine

def operate (m : Machine) : Operation → Machine
  | .step => m.step.2
  | .run w => (m.runAmid w).2
  | .rewind => m.rewind
  | .phase phase => m.withPhase phase
  | .event e => m.happen e
  | .env change => { m with env := change m.env }

def after (m : Machine) (ops : List Operation) : Machine := ops.foldl operate m

/-- A property of machines that neither their steps nor their hosts break. -/
structure Invariant (P : Machine → Prop) : Prop where
  step : ∀ m, P m → P m.step.2
  rewind : ∀ m, P m → P m.rewind
  phase : ∀ m phase, P m → P (m.withPhase phase)
  event : ∀ m e, P m → P (m.happen e)
  env : ∀ (m : Machine) (change : Environment → Environment), P m → P { m with env := change m.env }

variable {P : Machine → Prop}

theorem Invariant.amid (hP : Invariant P) (h : P m) (events : List Event) :
    P (m.amid events) := by
  induction events generalizing m with
  | nil => exact h
  | cons e events ih => exact ih (hP.event m e h)

theorem Invariant.step_amid (hP : Invariant P) (h : P m) (hs : (m.amid events).step = (r, m')) :
    P m' := by
  have hafter := hP.step _ (hP.amid h events)
  rwa [hs] at hafter

theorem Invariant.runAmid (hP : Invariant P) (h : P m) : P (m.runAmid w).2 := by
  fun_induction Machine.runAmid w m with
  | case1 w m e after hs => exact hP.step_amid h hs
  | case2 w m v after hs => exact hP.step_amid h hs
  | case3 w m after hs ih => exact ih (hP.step_amid h hs)

theorem Invariant.operate (hP : Invariant P) (h : P m) (op : Operation) : P (m.operate op) := by
  cases op with
  | step => exact hP.step m h
  | run w => exact hP.runAmid h
  | rewind => exact hP.rewind m h
  | phase phase => exact hP.phase m phase h
  | event e => exact hP.event m e h
  | env change => exact hP.env m change h

theorem Invariant.after (hP : Invariant P) (h : P m) (ops : List Operation) : P (m.after ops) := by
  induction ops generalizing m with
  | nil => exact h
  | cons op ops ih => exact ih (hP.operate h op)

/-- The machines that a run passes, each as it stands just before one of the steps. -/
inductive Passes : Course → Machine → Machine → Prop
  | here : Passes w m (m.amid (w 0))
  | further : (m.amid (w 0)).step = (.ok .proceed, next) → Passes w.later next last →
      Passes w m last

theorem Invariant.passes (hP : Invariant P) (h : P m) (hm : Passes w m last) : P last := by
  induction hm with
  | here => exact hP.amid h _
  | further hs _ ih => exact ih (hP.step_amid h hs)

theorem runAmid_error (he : (m.runAmid w).1 = .error e) :
    ∃ last, Passes w m last ∧ last.step = (.error e, (m.runAmid w).2) := by
  fun_induction Machine.runAmid w m with
  | case1 w m e' after hs =>
    cases he
    exact ⟨_, .here, hs⟩
  | case2 => cases he
  | case3 w m after hs ih =>
    obtain ⟨last, hm, hlast⟩ := ih he
    exact ⟨last, .further hs hm, hlast⟩

end Machine

end ScopeMachine
