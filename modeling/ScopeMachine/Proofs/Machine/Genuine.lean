import ScopeMachine.Proofs.Code.Assembly
import ScopeMachine.Proofs.Environment.Places
import ScopeMachine.Proofs.Machine.Performing
import ScopeMachine.Proofs.Machine.Terms

/-!
# Genuine values

The stand-in for a missing value is a value like any other, and every slot that is not hoisted starts
with it. Where the policy does not hand it out and no host does, code never gets hold of it: operands
and written slots are genuine after each instruction (`Performed.genuine`), hence in every state of
every run, and so is the result (`code_never_gets_the_stand_in`).
-/

namespace ScopeMachine

open Instruction

def Value.Genuine (v : Value) : Prop := v ≠ .uninitialized

def Slot.Genuine (s : Slot) : Prop := s.initialized = true → s.value.Genuine

def Frame.Genuine (f : Frame) : Prop := ∀ s ∈ f.slots, s.Genuine

def Environment.Genuine (env : Environment) : Prop := ∀ f ∈ env.frames, f.Genuine

structure Scene.Genuine (s : Scene) : Prop where
  operands : ∀ v ∈ s.operands, v.Genuine
  env : s.env.Genuine

def Host.Genuine (h : Host) : Prop := ∀ base m v, h.answer base m = .ok v → v.Genuine

structure Context.Genuine (c : Context) : Prop where
  ambient : ∀ a, c.ambient = some a → a.host.Genuine
  resolver : ∀ h, c.resolver = some h → h.Genuine

/-! ## Frames -/

namespace Slot

theorem genuine_ofDeclaration (d : Declaration) : (ofDeclaration d).Genuine := by
  intro hinit
  unfold ofDeclaration at hinit ⊢
  split
  · rintro ⟨⟩
  next hhoisted => simp [hhoisted] at hinit

theorem genuine_write (s : Slot) {v : Value} (hv : v.Genuine) : (s.write v).Genuine :=
  fun _ => hv

end Slot

namespace Frame

variable {f : Frame}

theorem genuine_instantiate (id : UInt16) (t : Template) : (instantiate id t).Genuine := by
  intro s hs
  rw [← Array.mem_toList_iff, slots_instantiate] at hs
  obtain ⟨d, -, rfl⟩ := List.mem_map.mp hs
  exact Slot.genuine_ofDeclaration d

theorem Genuine.write (h : f.Genuine) (n : Nat) {v : Value} (hv : v.Genuine) :
    (f.write n v).Genuine := by
  intro s hs
  obtain ⟨k, hk⟩ := Array.mem_iff_getElem?.mp hs
  rw [Frame.write, Array.getElem?_modify] at hk
  split at hk
  · obtain ⟨old, -, rfl⟩ := Option.map_eq_some_iff.mp hk
    exact old.genuine_write hv
  · exact h s (Array.mem_iff_getElem?.mpr ⟨k, hk⟩)

theorem Genuine.declare (h : f.Genuine) {s : Slot} (hs : s.Genuine) : (f.declare s).Genuine := by
  intro a ha
  rcases Array.mem_push.mp ha with ha | rfl
  · exact h a ha
  · exact hs

end Frame

/-! ## Environments -/

namespace Environment

variable {env : Environment}

theorem Genuine.modifyFrame (h : env.Genuine) (n : Nat) {change : Frame → Frame}
    (hchange : ∀ f, f.Genuine → (change f).Genuine) : (env.modifyFrame n change).Genuine := by
  intro f hf
  rw [frames_modifyFrame] at hf
  obtain ⟨k, hk⟩ := List.mem_iff_getElem?.mp hf
  rw [List.getElem?_modify] at hk
  obtain ⟨old, hold, rfl⟩ := Option.map_eq_some_iff.mp hk
  have hgenuine := h old (List.mem_of_getElem? hold)
  split
  · exact hchange old hgenuine
  · exact hgenuine

theorem Genuine.push (h : env.Genuine) (id : UInt16) (t : Template) : (env.push id t).Genuine := by
  intro f hf
  rcases List.mem_cons.mp hf with rfl | hf
  · exact Frame.genuine_instantiate id t
  · exact h f hf

theorem Genuine.pop (h : env.Genuine) (hpop : env.pop = .ok (f, below)) : below.Genuine := by
  intro g hg
  apply h
  rw [frames_pop hpop]
  exact List.mem_cons_of_mem f hg

theorem Genuine.write (h : env.Genuine) (hv : v.Genuine)
    (hwrite : env.write m v declares = .ok written) : written.Genuine := by
  unfold Environment.write at hwrite
  split at hwrite
  next b _ =>
    split at hwrite <;> cases hwrite
    exact h.modifyFrame b.distance fun f hf => hf.write b.index hv
  · split at hwrite <;> cases hwrite
    exact h.modifyFrame 0 fun f hf => hf.declare fun _ => hv

theorem Genuine.slot (h : env.Genuine) (hfind : env.find? m = some b) : b.slot.Genuine := by
  obtain ⟨f, hf, hfound⟩ := find?_eq_some hfind
  refine h f (List.mem_of_getElem? hf) b.slot ?_
  exact Array.mem_iff_getElem?.mpr ⟨b.index, Frame.slots_of_find? hfound⟩

theorem Genuine.read (h : env.Genuine) (hpolicy : env.policy.onUninitialized phase ≠ .sentinel)
    (hambient : ∀ a, ambient = some a → a.host.Genuine)
    (hread : (env.read m phase ambient).result = .ok v) : v.Genuine := by
  unfold Environment.read at hread
  split at hread
  next b hb =>
    simp only at hread
    split at hread
    next hinit =>
      cases hread
      exact h.slot hb hinit
    · unfold uninitialized at hread
      split at hread
      · cases hread
      next hsentinel => exact absurd hsentinel hpolicy
      · cases hread
        rintro ⟨⟩
  · -- no scope declares the name, so a host answers
    split at hread
    · cases hread
    next a =>
      exact hambient a rfl a.receiver m v (mapError_eq_ok.mp hread)

theorem genuine_ofUnit (h : ofUnit u = .ok env) : env.Genuine := by
  unfold ofUnit at h
  split at h
  next t _ =>
    cases h
    intro f hf
    obtain rfl := List.mem_singleton.mp hf
    exact Frame.genuine_instantiate u.base t
  · cases h

end Environment

/-! ## Instructions -/

namespace Value

theorem genuine_ofConstant (i : Interner) (k : Constant) : (ofConstant i k).Genuine := by
  cases k <;> rintro ⟨⟩

end Value

theorem Scene.Genuine.result {s : Scene} (h : s.Genuine) : s.result.Genuine := by
  unfold Scene.result
  cases htop : s.operands.head? with
  | none => rintro ⟨⟩
  | some v => exact h.operands v (List.mem_of_head? htop)

namespace Context

variable {c : Context} {s next : Scene}

theorem Genuine.property (h : c.Genuine) (hv : c.property base m = .ok v) : v.Genuine := by
  unfold Context.property at hv
  split at hv
  · cases hv
  next host hhost => exact h.resolver host hhost base m v (mapError_eq_ok.mp hv)

theorem Yields.genuine (h : c.Yields s i v) (hc : c.Genuine) (hs : s.Genuine)
    (hpolicy : s.env.policy.onUninitialized c.phase ≠ .sentinel) : v.Genuine := by
  cases h with
  | constant => exact Value.genuine_ofConstant _ _
  | multiname => rintro ⟨⟩
  | lexicalRead _ hread => exact hs.env.read hpolicy hc.ambient hread

theorem Performed.genuine (h : c.Performed limit s i next) (hc : c.Genuine) (hs : s.Genuine)
    (hpolicy : s.env.policy.onUninitialized c.phase ≠ .sentinel) : next.Genuine := by
  obtain ⟨hoperands, henv⟩ := hs
  cases h with
  | add hv =>
    refine ⟨List.forall_mem_cons.mpr ⟨?_, hoperands⟩, henv⟩
    exact hv.genuine hc ⟨hoperands, henv⟩ hpolicy
  | pop htop =>
    rw [htop] at hoperands
    exact ⟨(List.forall_mem_cons.mp hoperands).2, henv⟩
  | dotRead _ htop hv =>
    rw [htop] at hoperands
    exact ⟨List.forall_mem_cons.mpr ⟨hc.property hv, (List.forall_mem_cons.mp hoperands).2⟩, henv⟩
  | lexicalWrite _ htop hwrite =>
    -- the value written is the one on top, so it is genuine before it gets into a slot
    refine ⟨hoperands, henv.write ?_ hwrite⟩
    rw [htop] at hoperands
    exact (List.forall_mem_cons.mp hoperands).1
  | lexicalAssign _ htop hwrite =>
    refine ⟨hoperands, henv.write ?_ hwrite⟩
    rw [htop] at hoperands
    exact (List.forall_mem_cons.mp hoperands).1
  | pushFrame => exact ⟨hoperands, henv.push _ _⟩
  | popFrame hpop => exact ⟨hoperands, henv.pop hpop⟩
  | ret => exact ⟨fun v hv => hoperands v (List.mem_of_mem_tail hv), henv⟩

end Context

/-! ## Machines and their hosts -/

def Event.Genuine : Event → Prop
  | .request | .clear => True
  | .answers change => ∀ h : Host, h.Genuine → (change h).Genuine

def Course.Genuine (w : Course) : Prop := ∀ k, ∀ e ∈ w k, e.Genuine

theorem Course.genuine_quiet : quiet.Genuine := fun _ => List.forall_mem_nil _

/-- The operation brings no stand-in to the machine: neither does what happens in the course of it,
nor what the host does to the environment, and phase and policy stay. -/
def Operation.Genuine : Operation → Prop
  | .step | .rewind => True
  | .run w => w.Genuine
  | .phase _ => False
  | .event e => e.Genuine
  | .env change => ∀ env : Environment, env.Genuine →
      (change env).Genuine ∧ (change env).policy = env.policy

theorem Context.Genuine.happen {c : Context} (h : c.Genuine) (he : Event.Genuine e) :
    (c.happen e).Genuine := by
  cases e with
  | request => exact h
  | clear => exact h
  | answers change =>
    refine ⟨?_, ?_⟩
    · intro a ha
      obtain ⟨old, hold, rfl⟩ := Option.map_eq_some_iff.mp ha
      exact he old.host (h.ambient old hold)
    · intro host hhost
      obtain ⟨old, hold, rfl⟩ := Option.map_eq_some_iff.mp hhost
      exact he old (h.resolver old hold)

namespace Machine

variable {m : Machine} {w : Course}

/-- Neither the operands nor the written slots hold the stand-in, and neither the policy nor a host
gives it. -/
structure Genuine (m : Machine) : Prop where
  scene : m.toState.scene.Genuine
  context : m.toContext.Genuine
  policy : m.terms.onUninitialized ≠ .sentinel
  fits : m.toState.Fits

theorem Genuine.happen (h : m.Genuine) (he : Event.Genuine e) : (m.happen e).Genuine where
  scene := by
    have hstate := m.toState_amid [e]
    exact hstate ▸ h.scene
  context := by
    have hcontext := m.toContext_amid [e]
    exact hcontext ▸ h.context.happen he
  policy := by
    have hterms := m.terms_amid [e]
    exact hterms ▸ h.policy
  fits := fits_invariant.event m e h.fits

theorem Genuine.amid (h : m.Genuine) (he : ∀ e ∈ events, Event.Genuine e) :
    (m.amid events).Genuine := by
  induction events generalizing m with
  | nil => exact h
  | cons e events ih =>
    obtain ⟨hfirst, hrest⟩ := List.forall_mem_cons.mp he
    exact ih (h.happen hfirst) hrest

theorem Genuine.step (h : m.Genuine) :
    m.step.2.Genuine ∧ ∀ v, m.step.1 = .ok (.finished v) → v.Genuine := by
  have hcontext : m.step.2.toContext.Genuine := m.toContext_step ▸ h.context
  have hpolicy : m.step.2.terms.onUninitialized ≠ .sentinel := terms_step h.fits ▸ h.policy
  have hfits := fits_invariant.step m h.fits
  rcases step_performs h.fits with ⟨e, he, hstate⟩ | ⟨-, hs⟩ | ⟨i, -, hs, hperformed⟩
  · refine ⟨⟨?_, hcontext, hpolicy, hfits⟩, ?_⟩
    · rw [hstate]
      exact h.scene
    · intro v hv
      cases he.symm.trans hv
  · rw [hs]
    refine ⟨h, ?_⟩
    rintro v ⟨⟩
    exact h.scene.result
  · refine ⟨⟨hperformed.genuine h.context h.scene h.policy, hcontext, hpolicy, hfits⟩, ?_⟩
    intro v hv
    rw [hs] at hv
    split at hv <;> cases hv
    exact h.scene.result

theorem Genuine.stepsAmid (h : m.Genuine) (hw : w.Genuine) (k : Nat) : (m.stepsAmid w k).Genuine :=
  stepsAmid_induction h (fun k _ hm => hm.amid (hw k)) (fun _ hm => hm.step.1) k

theorem Genuine.outcomeAmid (h : m.Genuine) (hw : w.Genuine)
    (hv : m.outcomeAmid w k = .ok (.finished v)) : v.Genuine :=
  ((h.stepsAmid hw k).amid (hw k)).step.2 v hv

theorem Genuine.runAmid (h : m.Genuine) (hw : w.Genuine) :
    (m.runAmid w).2.Genuine ∧ ∀ v, (m.runAmid w).1 = .ok v → v.Genuine := by
  obtain ⟨k, -, hend, hlast⟩ := m.runAmid_eq_steps w
  refine ⟨hlast ▸ h.stepsAmid hw (k + 1), ?_⟩
  intro v hv
  rw [hv] at hend
  exact h.outcomeAmid hw hend

theorem Genuine.operate (h : m.Genuine) (hop : Operation.Genuine op) : (m.operate op).Genuine := by
  cases op with
  | step => exact h.step.1
  | run w => exact (h.runAmid hop).1
  | rewind => exact ⟨⟨List.forall_mem_nil _, h.scene.env⟩, h.context, h.policy, Nat.zero_le _⟩
  | phase => exact hop.elim
  | event e => exact h.happen hop
  | env change =>
    obtain ⟨henv, hpolicy⟩ := hop m.env h.scene.env
    have hreads : (change m.env).policy.onUninitialized m.phase ≠ .sentinel := hpolicy ▸ h.policy
    exact ⟨⟨h.scene.operands, henv⟩, h.context, hreads, h.fits⟩

theorem Genuine.after (h : m.Genuine) (hops : ∀ op ∈ ops, Operation.Genuine op) :
    (m.after ops).Genuine := by
  induction ops generalizing m with
  | nil => exact h
  | cons op ops ih =>
    obtain ⟨hfirst, hrest⟩ := List.forall_mem_cons.mp hops
    exact ih (h.operate hfirst) hrest

theorem genuine_env_ofSettings (h : ofSettings u s = .ok m)
    (henv : ∀ env, s.env = some env → env.Genuine) : m.env.Genuine := by
  have hstart (env) (he : s.environment u = .ok env) : env.Genuine := by
    unfold Settings.environment at he
    split at he
    next given hgiven =>
      cases he
      exact henv _ hgiven
    · exact Environment.genuine_ofUnit he
  unfold ofSettings at h
  split at h
  · cases h
  next env he =>
    cases h
    cases s.policy <;> exact hstart env he

/-- For every unit and all settings whose hosts never answer with the stand-in, and whose environment,
if they give one, has it in no slot that is written, there is a machine. If its policy does not give
it the stand-in in its phase, then whatever its host does with it, short of bringing it a stand-in or
changing policy or phase: in every state of every run, and after each further step, no operand is the
stand-in and no written slot of any frame holds it, and it is not the result. -/
theorem code_never_gets_the_stand_in (u : CodeUnit) (s : Settings)
    (hambient : ∀ a, s.ambient = some a → a.host.Genuine)
    (hresolver : ∀ h, s.resolver = some h → h.Genuine)
    (henv : ∀ env, s.env = some env → env.Genuine) :
    ∃ start, ofSettings u s = .ok start ∧
      (start.terms.onUninitialized ≠ .sentinel →
        ∀ ops, (∀ op ∈ ops, Operation.Genuine op) → ∀ w : Course, w.Genuine →
          let m := start.after ops
          (∀ k, let a := m.stepsAmid w k
            (∀ v ∈ a.stack.values, v ≠ .uninitialized) ∧
            (∀ f ∈ a.env.frames, ∀ slot ∈ f.slots,
              slot.initialized = true → slot.value ≠ .uninitialized) ∧
            m.outcomeAmid w k ≠ .ok (.finished .uninitialized)) ∧
          (m.runAmid w).1 ≠ .ok .uninitialized) := by
  obtain ⟨start, hok, hcontext, -, hstack, -⟩ := ofSettings_eq_ok u s
  refine ⟨start, hok, ?_⟩
  intro hpolicy ops hops w hw m
  have hstart : start.Genuine := by
    refine ⟨⟨?_, genuine_env_ofSettings hok henv⟩, ?_, hpolicy, .of_empty hstack⟩
    · rw [State.scene, hstack]
      exact List.forall_mem_nil _
    · rw [hcontext]
      exact ⟨hambient, hresolver⟩
  have hm : m.Genuine := hstart.after hops
  refine ⟨?_, fun hv => (hm.runAmid hw).2 _ hv rfl⟩
  intro k
  have ha := hm.stepsAmid hw k
  exact ⟨ha.scene.operands, ha.scene.env, fun hv => hm.outcomeAmid hw hv rfl⟩

/-- The program has a host stand in for a missing binding, reads one that is not written, declares the
first with what it gets, and reads a property of it. -/
theorem read_yields_undefined :
    let x : Multiname := ⟨⟨1⟩, []⟩
    let p : List Instruction := [.lexicalRead 1, .lexicalRead 0, .lexicalWrite 1, .dotRead 1]
    let host : Host := ⟨"host", fun _ _ => .ok (.int 7), fun _ _ => false⟩
    let env : Environment := .ofBase (.instantiate 0 ⟨none, [⟨x.declarationName, .none⟩]⟩)
    let policy : Policy := ⟨.reject, .undefined⟩
    let s : Settings := { Settings.default with
      policy := some policy, env := some env, ambient := some ⟨.null, host⟩, resolver := some host }
    ∃ u start, u.code = (assemble p).toArray ∧ ofSettings u s = .ok start ∧
      start.terms.onUninitialized = .undefined ∧
      (start.env.find? x).map (·.slot.initialized) = some false ∧
      (start.stepsAmid .quiet 3).stack.values = [.undefined, .int 7] ∧
      (∀ f ∈ (start.stepsAmid .quiet 3).env.frames, ∀ slot ∈ f.slots,
        slot.initialized = true → slot.value ≠ .uninitialized) ∧
      (start.runAmid .quiet).1 ≠ .ok .uninitialized := by
  intro x p host env policy s
  obtain ⟨templates, -, hd⟩ :=
    Draft.exists_templates .new ⟨#[x, ⟨⟨2⟩, []⟩], by decide⟩ #[] p (by decide) rfl
  let u : CodeUnit := ⟨_, hd⟩
  have hhost : host.Genuine := by
    rintro base m v ⟨⟩
    rintro ⟨⟩
  have henv : env.Genuine := by
    intro f hf
    obtain rfl := List.mem_singleton.mp hf
    exact Frame.genuine_instantiate _ _
  let start : Machine := ⟨⟨u, .run, some ⟨.null, host⟩, some host⟩,
    ⟨.empty s.stackLimit, env.withPolicy policy⟩, 0, none, []⟩
  obtain ⟨m, hok, h⟩ := code_never_gets_the_stand_in u s
    (by rintro _ ⟨⟩; exact hhost) (by rintro _ ⟨⟩; exact hhost) (by rintro _ ⟨⟩; exact henv)
  obtain rfl : start = m := Except.ok.inj hok
  have hpolicy : start.terms.onUninitialized ≠ .sentinel := by
    rintro ⟨⟩
  obtain ⟨hstates, hresult⟩ := h hpolicy [] (List.forall_mem_nil _) .quiet Course.genuine_quiet
  obtain ⟨-, hslots, -⟩ := hstates 3
  exact ⟨u, start, rfl, hok, rfl, by cbv, by cbv, hslots, hresult⟩

end Machine

end ScopeMachine
