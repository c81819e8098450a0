import Mathlib.Data.List.Permutation
import ScopeMachine.Proofs.Environment.Agreement
import ScopeMachine.Proofs.Environment.Lookup

/-!
# Places of bindings

A `Place` is a slot of a frame, the frame counted from the base frame outwards in, so it stays the
same while scopes are entered and left above it. Of all that is done to an environment, only writes
that resolve to a place change what is there, and these overwrite it (`slot?_act`). Over a run of
actions a slot becomes what it was, overwritten with the values written to its place (`slot?_after`).
-/

namespace ScopeMachine

open List

structure Place where
  /-- How far its frame is above the base frame. -/
  height : Nat
  /-- The number of its slot. -/
  index : Nat
  deriving DecidableEq, Repr

/-- What is done to an environment, by running code or by its host. -/
inductive Action where
  | push (id : UInt16) (t : Template)
  | pop
  | read (m : Multiname) (phase : Phase) (ambient : Option Ambient)
  | write (m : Multiname) (v : Value) (declares : Bool)
  /-- Running code never does this. -/
  | define (q : QualifiedName) (v : Value) (flags : SlotFlags)

def Action.isDefine : Action → Bool
  | define .. => true
  | _ => false

def Action.isWrite : Action → Bool
  | write .. => true
  | _ => false

namespace Slot

def overwrite (s : Slot) (values : List Value) : Slot := values.foldl write s

@[simp] theorem overwrite_nil (s : Slot) : s.overwrite [] = s := rfl

@[simp] theorem name_overwrite (s : Slot) (values : List Value) :
    (s.overwrite values).name = s.name := by
  induction values generalizing s with
  | nil => rfl
  | cons v values ih => exact ih (s.write v)

@[simp] theorem flags_overwrite (s : Slot) (values : List Value) :
    (s.overwrite values).flags = s.flags := by
  induction values generalizing s with
  | nil => rfl
  | cons v values ih => exact ih (s.write v)

theorem initialized_overwrite {s : Slot} (h : s.initialized = true) (values : List Value) :
    (s.overwrite values).initialized = true := by
  induction values generalizing s with
  | nil => exact h
  | cons v values ih => exact ih rfl

end Slot

namespace Frame

theorem slots_declareAll (f : Frame) (ds : List Declaration) :
    (ds.foldl (fun f d => f.declare (.ofDeclaration d)) f).slots.toList =
      f.slots.toList ++ ds.map .ofDeclaration := by
  induction ds generalizing f with
  | nil => simp
  | cons d ds ih =>
    rw [foldl_cons, ih]
    simp [declare]

theorem slots_instantiate (id : UInt16) (t : Template) :
    (instantiate id t).slots.toList = t.slots.map .ofDeclaration :=
  slots_declareAll _ t.slots

end Frame

namespace Environment

variable {env : Environment} {p : Place} {s : Slot} {m : Multiname}

/-! ## Frames by their height -/

def frameAt? (env : Environment) (height : Nat) : Option Frame := env.frames.reverse[height]?

def slot? (env : Environment) (p : Place) : Option Slot :=
  (env.frameAt? p.height).bind (·.slots[p.index]?)

def place? (env : Environment) (m : Multiname) : Option Place :=
  (env.find? m).map fun b => ⟨env.outer.length - b.distance, b.index⟩

@[simp] theorem length_frames (env : Environment) : env.frames.length = env.depth := rfl

theorem frameAt?_of_lt (h : height < env.depth) :
    env.frameAt? height = env.frames[env.depth - 1 - height]? :=
  getElem?_reverse h

theorem frameAt?_eq_none (h : env.depth ≤ height) : env.frameAt? height = none :=
  getElem?_eq_none (by simpa using h)

theorem frameAt?_push (env : Environment) (id : UInt16) (t : Template) (height : Nat) :
    (env.push id t).frameAt? height =
      if height = env.depth then some (.instantiate id t) else env.frameAt? height := by
  have hframes : (env.push id t).frames = .instantiate id t :: env.frames := rfl
  unfold frameAt?
  rw [hframes, reverse_cons, getElem?_append, length_reverse, length_frames]
  rcases Nat.lt_trichotomy height env.depth with hlt | rfl | hgt
  · rw [if_pos hlt, if_neg (Nat.ne_of_lt hlt)]
  · simp
  · rw [if_neg (by omega), if_neg (by omega), getElem?_eq_none (by simp; omega),
      getElem?_eq_none (by simp; omega)]

theorem frames_pop (h : env.pop = .ok (f, below)) : env.frames = f :: below.frames := by
  obtain ⟨innermost, outer, policy⟩ := env
  cases outer with
  | nil => cases h
  | cons g outer =>
    cases h
    rfl

theorem frameAt?_pop (h : env.pop = .ok (f, below)) (hlt : height < below.depth) :
    below.frameAt? height = env.frameAt? height := by
  unfold frameAt?
  rw [frames_pop h, reverse_cons, getElem?_append_left (by simpa using hlt)]

@[simp] theorem depth_modifyFrame (env : Environment) (n : Nat) (change : Frame → Frame) :
    (env.modifyFrame n change).depth = env.depth := by
  rw [← length_frames, frames_modifyFrame, length_modify, length_frames]

theorem frameAt?_modifyFrame (env : Environment) (n : Nat) (change : Frame → Frame) (height : Nat) :
    (env.modifyFrame n change).frameAt? height =
      if height + n + 1 = env.depth then (env.frameAt? height).map change
      else env.frameAt? height := by
  by_cases hlt : height < env.depth
  · rw [frameAt?_of_lt (by simpa using hlt), frameAt?_of_lt hlt, frames_modifyFrame,
      depth_modifyFrame, getElem?_modify]
    by_cases hn : height + n + 1 = env.depth
    · rw [if_pos hn, ← hn]
      simp
    · have hne : n ≠ env.depth - 1 - height := by omega
      simp [hn, hne]
  · have hge : env.depth ≤ height := by omega
    rw [frameAt?_eq_none hge, frameAt?_eq_none (by simpa using hge)]
    simp

/-! ## Places of references -/

theorem place?_eq_some (h : env.place? m = some p) :
    ∃ b, env.find? m = some b ∧ p.height + b.distance + 1 = env.depth ∧ p.index = b.index ∧
      env.slot? p = some b.slot := by
  obtain ⟨b, hb, rfl⟩ := Option.map_eq_some_iff.mp h
  obtain ⟨f, hf, hfound⟩ := find?_eq_some hb
  have hlt : b.distance < env.depth := by simpa using (List.getElem?_eq_some_iff.mp hf).1
  have hheight : env.outer.length - b.distance + b.distance + 1 = env.depth := by
    unfold depth at *
    omega
  refine ⟨b, hb, hheight, rfl, ?_⟩
  have hback : env.depth - 1 - (env.outer.length - b.distance) = b.distance := by omega
  have hin : env.outer.length - b.distance < env.depth := by omega
  rw [slot?, frameAt?_of_lt hin, hback, hf]
  exact Frame.slots_of_find? hfound

theorem place?_eq_none_iff : env.place? m = none ↔ env.find? m = none := Option.map_eq_none_iff

theorem place?_of_find? (h : env.find? m = some b) :
    ∃ p, env.place? m = some p ∧ p.height + b.distance + 1 = env.depth ∧ p.index = b.index ∧
      env.slot? p = some b.slot := by
  have hp : env.place? m = some ⟨env.outer.length - b.distance, b.index⟩ := by simp [place?, h]
  obtain ⟨c, hc, hrest⟩ := place?_eq_some hp
  cases h.symm.trans hc
  exact ⟨_, hp, hrest⟩

/-! ## What actions do to places -/

/-- Does the action, and says whether it failed. -/
def act (env : Environment) : Action → Except EvalError Unit × Environment
  | .push id t => (.ok (), env.push id t)
  | .pop =>
    match env.pop with
    | .error e => (.error e, env)
    | .ok (_, below) => (.ok (), below)
  | .read m phase ambient => ((env.read m phase ambient).result.map fun _ => (), env)
  | .write m v declares =>
    match env.write m v declares with
    | .error e => (.error e, env)
    | .ok after => (.ok (), after)
  | .define q v flags => (.ok (), env.define q v flags)

def after (env : Environment) (actions : List Action) : Environment :=
  actions.foldl (fun env a => (env.act a).2) env

/-- The value that the action writes to the place: it is a write that resolves to the place, and it
succeeds. -/
def written? (env : Environment) (p : Place) (a : Action) : Option Value :=
  match a with
  | .write m v _ => if env.place? m = some p ∧ (env.act a).1.isOk then some v else none
  | _ => none

/-- The values that the actions write to the place, the first one first. -/
def writes (env : Environment) (p : Place) : List Action → List Value
  | [] => []
  | a :: actions => (env.written? p a).toList ++ (env.act a).2.writes p actions

theorem act_write_of_place? (hp : env.place? m = some p) (hs : env.slot? p = some s) (v : Value)
    (declares : Bool) :
    env.act (.write m v declares) =
      if s.isFixed then (.error (.immutableBinding s.name), env)
      else (.ok (), env.modifyFrame (env.depth - 1 - p.height) (·.write p.index v)) := by
  obtain ⟨b, hb, hheight, hindex, hslot⟩ := place?_eq_some hp
  cases hs.symm.trans hslot
  have hdistance : env.depth - 1 - p.height = b.distance := by omega
  rw [hdistance, hindex]
  simp only [act, Environment.write, hb]
  by_cases hfixed : b.slot.isFixed <;> simp [hfixed]

theorem act_write_of_place?_eq_none (hp : env.place? m = none) (v : Value) (declares : Bool) :
    env.act (.write m v declares) =
      if declares then (.ok (), env.modifyFrame 0 (·.declare ⟨m.declarationName, v, .none, true⟩))
      else (.error (.unresolvedBinding m), env) := by
  simp only [act, Environment.write, place?_eq_none_iff.mp hp]
  cases declares <;> rfl

theorem height_lt_of_slot? (hs : env.slot? p = some s) : p.height < env.depth := by
  refine Nat.lt_of_not_le fun hge => ?_
  simp [slot?, frameAt?_eq_none hge] at hs

theorem slot?_modifyFrame_write (env : Environment) (n k : Nat) (v : Value) (p : Place) :
    (env.modifyFrame n (·.write k v)).slot? p =
      if p.height + n + 1 = env.depth ∧ p.index = k then (env.slot? p).map (·.write v)
      else env.slot? p := by
  unfold slot?
  rw [frameAt?_modifyFrame]
  by_cases hheight : p.height + n + 1 = env.depth
  · cases env.frameAt? p.height with
    | none => simp
    | some f => simp [hheight, Frame.write, Array.getElem?_modify, eq_comm]
  · simp [hheight]

theorem slot?_modifyFrame_declare (hs : env.slot? p = some s) (n : Nat) (a : Slot) :
    (env.modifyFrame n (·.declare a)).slot? p = some s := by
  obtain ⟨f, hf, hslot⟩ := Option.bind_eq_some_iff.mp hs
  have hlt := (Array.getElem?_eq_some_iff.mp hslot).1
  unfold slot?
  rw [frameAt?_modifyFrame, hf]
  -- a slot that is added stands behind those that are there
  split
  · simpa [Frame.declare, Array.getElem?_push, Nat.ne_of_lt hlt] using hslot
  · exact hslot

/-- Only a write changes a frame that is not left and in which nothing is defined. -/
theorem frameAt?_act {a : Action} (hlive : height < (env.act a).2.depth)
    (hin : height < env.depth) (hdefine : a.isDefine = true → height + 1 < env.depth)
    (hwrite : a.isWrite = false) : (env.act a).2.frameAt? height = env.frameAt? height := by
  cases a with
  | push id t =>
    have hne : height ≠ env.depth := Nat.ne_of_lt hin
    simp [act, frameAt?_push, hne]
  | pop =>
    -- the frame that is left is not this one, which is there afterwards
    simp only [act] at hlive ⊢
    cases hpop : env.pop with
    | error e => rfl
    | ok popped =>
      rw [hpop] at hlive
      exact frameAt?_pop hpop hlive
  | read m phase ambient => rfl
  | write m v declares => cases hwrite
  | define q v flags =>
    have hne : height + 0 + 1 ≠ env.depth := Nat.ne_of_lt (hdefine rfl)
    simp only [act, define, frameAt?_modifyFrame, if_neg hne]

theorem slot?_act_write (hs : env.slot? p = some s) (m : Multiname) (v : Value) (declares : Bool) :
    (env.act (.write m v declares)).2.slot? p =
      some (s.overwrite (env.written? p (.write m v declares)).toList) := by
  cases hp : env.place? m with
  | none =>
    have hnot : env.written? p (.write m v declares) = none := by simp [written?, hp]
    rw [hnot, act_write_of_place?_eq_none hp]
    cases declares with
    | false => exact hs
    | true => exact slot?_modifyFrame_declare hs 0 _
  | some q =>
    obtain ⟨b, -, hheight, -, hb⟩ := place?_eq_some hp
    have hact := act_write_of_place? hp hb v declares
    by_cases hfixed : b.slot.isFixed
    · rw [if_pos hfixed] at hact
      have hnot : env.written? p (.write m v declares) = none := by
        simp [written?, hact, Except.isOk, Except.toBool]
      rw [hnot, hact]
      exact hs
    · rw [if_neg hfixed] at hact
      rw [hact, slot?_modifyFrame_write, hs]
      -- the place that is written is the one that is looked at, or another one
      by_cases hpq : q = p
      · subst hpq
        have hdone : env.written? q (.write m v declares) = some v := by
          simp [written?, hp, hact, Except.isOk, Except.toBool]
        rw [hdone, if_pos ⟨by omega, rfl⟩]
        rfl
      · have hnot : env.written? p (.write m v declares) = none := by simp [written?, hp, hpq]
        rw [hnot, if_neg]
        · rfl
        · rintro ⟨hsame, hindex⟩
          obtain ⟨height, index⟩ := p
          obtain ⟨height', index'⟩ := q
          simp only [Place.mk.injEq] at hpq hsame hindex hheight
          omega

/-- What an action makes of a slot whose frame it does not leave, and in whose frame it defines
nothing: it overwrites the slot if it is a write that resolves to its place and succeeds. -/
theorem slot?_act {a : Action} (hs : env.slot? p = some s) (hlive : p.height < (env.act a).2.depth)
    (hdefine : a.isDefine = true → p.height + 1 < env.depth) :
    (env.act a).2.slot? p = some (s.overwrite (env.written? p a).toList) := by
  cases hwrite : a.isWrite with
  | true =>
    cases a with
    | write m v declares => exact slot?_act_write hs m v declares
    | _ => cases hwrite
  | false =>
    have hnot : env.written? p a = none := by
      cases a with
      | write => cases hwrite
      | _ => rfl
    rw [hnot, slot?, frameAt?_act hlive (height_lt_of_slot? hs) hdefine hwrite]
    exact hs

/-! ## Runs of actions -/

/-- The frame at that height stays: no action leaves it. -/
def Keeps (env : Environment) (height : Nat) : List Action → Prop
  | [] => height < env.depth
  | a :: actions => height < env.depth ∧ (env.act a).2.Keeps height actions

/-- In the frame at that height nothing is defined by the actions. -/
def Spares (env : Environment) (height : Nat) : List Action → Prop
  | [] => True
  | a :: actions =>
    (a.isDefine = true → height + 1 < env.depth) ∧ (env.act a).2.Spares height actions

theorem Keeps.lt_depth (h : env.Keeps height actions) : height < env.depth := by
  cases actions with
  | nil => exact h
  | cons a actions => exact h.1

theorem Keeps.of_le (h : env.Keeps height actions) (hle : below ≤ height) :
    env.Keeps below actions := by
  induction actions generalizing env with
  | nil => exact Nat.lt_of_le_of_lt hle h
  | cons a actions ih => exact ⟨Nat.lt_of_le_of_lt hle h.1, ih h.2⟩

/-- Definitions fall into the innermost frame, so a frame below one that stays is spared. -/
theorem Keeps.spares (h : env.Keeps height actions) (hlt : below < height) :
    env.Spares below actions := by
  induction actions generalizing env with
  | nil => trivial
  | cons a actions ih =>
    have := h.1
    exact ⟨fun _ => by omega, ih h.2⟩

theorem spares_of_noDefine (h : ∀ a ∈ actions, a.isDefine = false) : env.Spares height actions := by
  induction actions generalizing env with
  | nil => trivial
  | cons a actions ih =>
    have ha := h a mem_cons_self
    exact ⟨by simp [ha], ih fun a' ha' => h a' (mem_cons_of_mem _ ha')⟩

theorem after_append (env : Environment) (front back : List Action) :
    env.after (front ++ back) = (env.after front).after back :=
  foldl_append

theorem keeps_append : env.Keeps height (front ++ back) ↔
    env.Keeps height front ∧ (env.after front).Keeps height back := by
  induction front generalizing env with
  | nil => exact ⟨fun h => ⟨h.lt_depth, h⟩, fun h => h.2⟩
  | cons a front ih => exact (and_congr_right fun _ => ih).trans and_assoc.symm

theorem spares_append : env.Spares height (front ++ back) ↔
    env.Spares height front ∧ (env.after front).Spares height back := by
  induction front generalizing env with
  | nil => exact ⟨fun h => ⟨trivial, h⟩, fun h => h.2⟩
  | cons a front ih => exact (and_congr_right fun _ => ih).trans and_assoc.symm

theorem writes_append (env : Environment) (p : Place) (front back : List Action) :
    env.writes p (front ++ back) = env.writes p front ++ (env.after front).writes p back := by
  induction front generalizing env with
  | nil => rfl
  | cons a front ih => rw [cons_append, writes, ih, writes, append_assoc]; rfl

/-- After the actions the slot is what it was, overwritten with what was written to its place. -/
theorem slot?_after (hs : env.slot? p = some s) (hkeeps : env.Keeps p.height actions)
    (hspares : env.Spares p.height actions) :
    (env.after actions).slot? p = some (s.overwrite (env.writes p actions)) := by
  induction actions generalizing env s with
  | nil => exact hs
  | cons a actions ih =>
    have hnext := slot?_act hs hkeeps.2.lt_depth hspares.1
    have hrest := ih hnext hkeeps.2 hspares.2
    rwa [Slot.overwrite, Slot.overwrite, ← foldl_append] at hrest

end Environment

end ScopeMachine
