import FrigateXdna.Transport.Liveness

/-!
# The session table and the switch

The worker loop decides on a switch before it waits for the new worker, and carries the
switch out afterwards.  While it waits it handles nothing else, so what it saw of the
session table still holds when it resumes.

Main results:

- Theorem {lit}`Frontend.next_consistent`: a step keeps every binding in the current
  generation and on the active artifact.
- Theorem {lit}`Frontend.next_generation`: the generation moves by one at a switch and at
  no other step.
- Theorem {lit}`sessions_consistent`: both in every run, and a switch only happens when no
  binding was used shortly before.
-/

namespace FrigateXdna
namespace Transport

open Python Library FrigateXdna.Runtime

namespace Frontend

/-! ## The bindings of the current generation -/

/-- Every binding is of the current generation and names the active artifact. -/
def Consistent (f : Frontend) : Prop :=
  ∀ b ∈ f.sessions.byIdentity,
    b.generation = f.generation ∧ f.activeArtifact = some b.compileKey

theorem consistent_fresh : Consistent {} :=
  fun _ h => absurd h List.not_mem_nil

theorem Consistent.touch {f : Frontend} (h : f.Consistent) (identity : Bytes) (now : Int) :
    Consistent { f with sessions := f.sessions.touch identity now } := by
  intro b hb
  obtain ⟨old, hold, hkey, hgen⟩ := SessionTable.mem_touch hb
  rw [hkey, hgen]
  exact h old hold

theorem Consistent.bind {f : Frontend} {m : Message} {t : Transfer} {now : Int}
    (h : f.Consistent) (hactive : f.activeArtifact = some t.compileKey) :
    (f.bindTransfer m t now).Consistent := by
  intro b hb
  rcases SessionTable.mem_bind hb with rfl | hb
  · exact ⟨rfl, hactive⟩
  · exact h b hb

/-- Right after a switch there are no bindings. -/
theorem Consistent.activated {f : Frontend} (h : f.Consistent) (t : Transfer) :
    (f.activated t).Consistent := by
  unfold Frontend.activated
  split
  · rename_i hnone
    intro b hb
    have hactive := (h b hb).2
    rw [hnone] at hactive
    contradiction
  · intro b hb
    rw [SessionTable.markSuperseded_byIdentity] at hb
    obtain ⟨hold, hgen⟩ := SessionTable.mem_invalidate hb
    exact absurd (h b hold).1 hgen

theorem Consistent.ends {f : Frontend} {m : Message} {r : Frontend × List Sent}
    (hf : f.Consistent) (h : Ends f m r) : r.1.Consistent := by
  cases h with
  | refused counters reply hreply => exact hf
  | available now hbound => exact hf.touch m.identity now
  | bound t now hactive => exact hf.bind hactive
  | checking t hactive => exact hf
  | forwarding counters shape remain hbound => exact hf

theorem Consistent.fails {f : Frontend} {m : Message} {e : Raised}
    {r : Frontend × List Sent} (hf : f.Consistent) (h : Fails f m e r) : r.1.Consistent := by
  cases h with
  | before counters => exact hf
  | after t now hactive => exact hf.bind hactive

theorem Consistent.process {f : Frontend} (hf : f.Consistent) (cfg : Config) (env : TakeEnv)
    (m : Message) : (process cfg env m f).1.Consistent := by
  have hends := process_spec cfg env m f
  cases hfault : handlerFault cfg env m f with
  | none =>
      rw [hfault] at hends
      exact hf.ends hends
  | some e =>
      rw [hfault] at hends
      exact hf.fails hends

theorem Consistent.bindAndReply {f : Frontend} {t : Transfer} (hf : f.Consistent)
    (hactive : f.activeArtifact = some t.compileKey) (m : Message) (now : Int)
    (emitFault : Option PyExc) : (f.bindAndReply m t now emitFault).1.Consistent := by
  cases emitFault with
  | none => exact hf.bind hactive
  | some e => exact hf.bind hactive

/-- **A step keeps every binding in the current generation and on the active
artifact.** -/
theorem next_consistent {cfg : Config} {f : Frontend} {i : Input} {r : Frontend × List Sent}
    (hf : f.Consistent) (h : f.next cfg i = some r) : r.1.Consistent := by
  cases i with
  | receive limit now parts =>
      simp only [next] at h
      split at h
      · obtain rfl := Option.some.inj h
        obtain ⟨hsessions, -, hgen, hactive, -⟩ := receive_spec limit now parts f
        unfold Consistent
        rw [hsessions, hgen, hactive]
        exact hf
      · contradiction
  | take env =>
      simp only [next, take] at h
      split at h
      · rename_i m rest hidle hqueue
        obtain rfl := Option.some.inj h
        have hrest : Consistent { f with queue := rest } := hf
        exact hrest.process cfg env m
      · contradiction
  | usable files =>
      simp only [next, usableDone] at h
      split at h
      · split at h <;>
        · obtain rfl := Option.some.inj h
          exact hf
      · contradiction
  | activated now emitFault outcome =>
      obtain ⟨m, t, -, ⟨-, rfl⟩ | ⟨-, rfl⟩⟩ := activateDone_spec h
      · exact hf
      · exact (hf.activated t).bindAndReply (activated_active f t) m now emitFault
  | inferred now outcome =>
      simp only [next, inferDone] at h
      split at h
      · rename_i m shape remain hphase
        split at h <;>
        · obtain rfl := Option.some.inj h
          exact hf.touch m.identity now
      · contradiction

/-! ## The generation -/

/-- An automatic switch: the activation that the worker loop waited for succeeded, and
another artifact was active. -/
def isSwitch (f : Frontend) : Input → Bool
  | .activated _ _ (.ok true) => f.activeArtifact.isSome
  | _ => false

theorem bindAndReply_generation (f : Frontend) (m : Message) (t : Transfer) (now : Int)
    (emitFault : Option PyExc) :
    (f.bindAndReply m t now emitFault).1.generation = f.generation := by
  cases emitFault <;> rfl

theorem activated_generation (f : Frontend) (t : Transfer) :
    (f.activated t).generation =
      if f.activeArtifact.isSome then f.generation + 1 else f.generation := by
  unfold activated
  split <;> rename_i h <;> simp [h]

/-- **The generation moves by one at a switch and at no other step.** -/
theorem next_generation {cfg : Config} {f : Frontend} {i : Input} {r : Frontend × List Sent}
    (h : f.next cfg i = some r) :
    r.1.generation = if f.isSwitch i then f.generation + 1 else f.generation := by
  cases i with
  | receive limit now parts =>
      simp only [next] at h
      split at h
      · obtain rfl := Option.some.inj h
        exact (receive_spec limit now parts f).2.2.1
      · contradiction
  | take env => exact (handled_take h).generation
  | usable files => exact (handled_usableDone h).generation
  | inferred now outcome => exact (handled_inferDone h).generation
  | activated now emitFault outcome =>
      obtain ⟨m, t, -, ⟨hout, rfl⟩ | ⟨rfl, rfl⟩⟩ := activateDone_spec h
      · have hno : f.isSwitch (.activated now emitFault outcome) = false := by
          unfold isSwitch
          split
          · rename_i heq
            cases heq
            exact absurd rfl hout
          · rfl
        rw [hno]
        rfl
      · rw [bindAndReply_generation, activated_generation]
        rfl

/-! ## The decision to switch -/

/-- Whether the worker loop waits on the way to an activation. -/
def Phase.isSwitching : Phase → Bool
  | .checking _ _ => true
  | .activating _ _ => true
  | _ => false

/-- The worker loop only waits for an activation while no binding of the current
generation is in use, unless no artifact is active yet. -/
def Drained (f : Frontend) (clock : Int) : Prop :=
  Phase.isSwitching f.phase = true → f.activeArtifact.isSome = true →
    f.sessions.isQuiescent f.generation clock = true

/-- Quiet bindings stay quiet as time passes. -/
theorem isQuiescent_mono {t : SessionTable} {generation now later : Int} (hle : now ≤ later)
    (h : t.isQuiescent generation now = true) : t.isQuiescent generation later = true := by
  unfold SessionTable.isQuiescent at h ⊢
  rw [List.all_eq_true] at h ⊢
  intro b hb
  have hrow := h b hb
  simp only [Bool.not_eq_true', Bool.and_eq_false_iff, decide_eq_false_iff_not] at hrow ⊢
  rcases hrow with hrow | hrow
  · exact Or.inl hrow
  · exact Or.inr fun hlate => hrow (by omega)

theorem Drained.mono {f : Frontend} {clock later : Int} (h : f.Drained clock)
    (hle : clock ≤ later) : f.Drained later :=
  fun hphase hactive => isQuiescent_mono hle (h hphase hactive)

/-- An idle, forwarding or dead worker loop is not about to switch. -/
theorem drained_of_not_switching {f : Frontend} (h : Phase.isSwitching f.phase = false)
    (clock : Int) : f.Drained clock := by
  intro hphase
  rw [h] at hphase
  contradiction

/-- A prepared transfer is only taken to an activation when the bindings are quiet. -/
theorem handlePrepared_drained (f : Frontend) (m : Message) (t : Transfer) (env : TakeEnv) :
    (f.handlePrepared m t env).1.Drained env.now := by
  unfold handlePrepared
  split
  · rename_i hnone
    unfold tryActivate
    split
    · intro _ hactive
      rw [hnone] at hactive
      contradiction
    · exact drained_of_not_switching rfl env.now
  · split
    · unfold Frontend.bindAndReply
      split <;> exact drained_of_not_switching rfl env.now
    · split
      · exact drained_of_not_switching rfl env.now
      · rename_i hquiet
        unfold tryActivate
        split
        · intro _ _
          simpa [SessionTable.hasActiveTraffic] using hquiet
        · exact drained_of_not_switching rfl env.now

theorem handleModelData_drained (cfg : Config) (f : Frontend) (m : Message) (env : TakeEnv) :
    (handleModelData cfg f m env).1.Drained env.now := by
  unfold handleModelData
  split
  · exact drained_of_not_switching rfl env.now
  · split
    · exact drained_of_not_switching rfl env.now
    · exact drained_of_not_switching rfl env.now
    · exact drained_of_not_switching rfl env.now
    · split
      · exact drained_of_not_switching rfl env.now
      · exact drained_of_not_switching rfl env.now
      · split
        · exact handlePrepared_drained f m _ env
        · exact drained_of_not_switching rfl env.now

theorem handleInfer_drained (f : Frontend) (m : Message) (env : TakeEnv) :
    (f.handleInfer m env).1.Drained env.now := by
  unfold handleInfer
  dsimp only
  split
  · exact drained_of_not_switching rfl env.now
  · split
    · exact drained_of_not_switching rfl env.now
    · split
      · exact drained_of_not_switching rfl env.now
      · split <;> exact drained_of_not_switching rfl env.now

theorem expired_drained (f : Frontend) (m : Message) (clock : Int) :
    (f.expired m).1.Drained clock := by
  unfold expired
  dsimp only
  split
  · exact drained_of_not_switching rfl clock
  · exact drained_of_not_switching rfl clock
  · split
    · exact drained_of_not_switching rfl clock
    · split
      · exact drained_of_not_switching rfl clock
      · split
        · exact drained_of_not_switching rfl clock
        · split <;> exact drained_of_not_switching rfl clock

theorem handleModelRequest_drained (f : Frontend) (m : Message) (now : Int) :
    (f.handleModelRequest m now).1.Drained now := by
  unfold handleModelRequest
  split
  · split <;> exact drained_of_not_switching rfl now
  · exact drained_of_not_switching rfl now

/-- Handling a message only leads to an activation when the bindings are quiet. -/
theorem process_drained (cfg : Config) (env : TakeEnv) (m : Message) (f : Frontend) :
    (process cfg env m f).1.Drained env.now := by
  unfold process
  split
  · exact expired_drained f m env.now
  · split
    · exact drained_of_not_switching rfl env.now
    · split
      · exact handleModelRequest_drained f m env.now
      · split
        · exact drained_of_not_switching rfl env.now
        · split
          · exact handleModelData_drained cfg f m env
          · split
            · exact drained_of_not_switching rfl env.now
            · exact handleInfer_drained f m env
            · exact drained_of_not_switching rfl env.now

end Frontend

/-! ## Runs under a clock -/

/-- The clock readings of a step, in order. -/
def Input.readings : Input → List Int
  | .receive _ now _ => [now]
  | .take env => [env.now, env.checked, env.forwarded]
  | .usable _ => []
  | .activated now _ _ => [now]
  | .inferred now _ => [now]

/-- The frontend with the last reading of {lit}`time.monotonic()`. -/
structure Clocked where
  frontend : Frontend := {}
  clock : Int

/-- One step; the clock never goes back. -/
def Clocked.step (cfg : Config) (s : Clocked) (i : Input) : Option (Clocked × List Sent) :=
  if (s.clock :: i.readings).IsChain (· ≤ ·) then
    match s.frontend.next cfg i with
    | none => none
    | some (f, sent) => some (⟨f, i.readings.getLastD s.clock⟩, sent)
  else none

/-- Runs of the frontend under its clock. -/
def clocked (cfg : Config) : Machine Clocked Input Sent where
  step := Clocked.step cfg

theorem clocked_step {cfg : Config} {s s' : Clocked} {i : Input} {sent : List Sent}
    (h : (clocked cfg).step s i = some (s', sent)) :
    (s.clock :: i.readings).IsChain (· ≤ ·) ∧
      s.frontend.next cfg i = some (s'.frontend, sent) ∧
      s'.clock = i.readings.getLastD s.clock := by
  have hstep : s.step cfg i = some (s', sent) := h
  unfold Clocked.step at hstep
  split at hstep
  · rename_i hchain
    split at hstep
    · contradiction
    · rename_i f out hnext
      obtain ⟨rfl, rfl⟩ := Prod.mk.inj (Option.some.inj hstep)
      exact ⟨hchain, hnext, rfl⟩
  · contradiction

/-- What the session table keeps in every state. -/
structure InOrder (s : Clocked) : Prop where
  consistent : s.frontend.Consistent
  drained : s.frontend.Drained s.clock

/-- A step leads to an activation only when the bindings are quiet, and they stay so. -/
theorem next_drained {cfg : Config} {f : Frontend} {i : Input} {r : Frontend × List Sent}
    {clock : Int} (hf : f.Drained clock) (hchain : (clock :: i.readings).IsChain (· ≤ ·))
    (h : f.next cfg i = some r) : r.1.Drained (i.readings.getLastD clock) := by
  cases i with
  | receive limit now parts =>
      simp only [Frontend.next] at h
      split at h
      · obtain rfl := Option.some.inj h
        have hle : clock ≤ now := by simpa [Input.readings] using hchain
        obtain ⟨hsessions, hphase, hgen, hactive, -⟩ := Frontend.receive_spec limit now parts f
        have hdrained := hf.mono hle
        unfold Frontend.Drained at hdrained ⊢
        rw [hsessions, hphase, hgen, hactive]
        exact hdrained
      · contradiction
  | take env =>
      simp only [Frontend.next, Frontend.take] at h
      split at h
      · rename_i m rest hidle hqueue
        obtain rfl := Option.some.inj h
        have hle : env.now ≤ env.forwarded := by
          simp [Input.readings] at hchain
          omega
        exact (Frontend.process_drained cfg env m _).mono hle
      · contradiction
  | usable files =>
      simp only [Frontend.next, Frontend.usableDone] at h
      split at h
      · rename_i m t hphase
        split at h
        · obtain rfl := Option.some.inj h
          exact Frontend.drained_of_not_switching rfl _
        · obtain rfl := Option.some.inj h
          exact Frontend.drained_of_not_switching rfl _
        · obtain rfl := Option.some.inj h
          intro _ hactive
          exact hf (by rw [hphase]; rfl) hactive
      · contradiction
  | activated now emitFault outcome =>
      obtain ⟨m, t, -, ⟨-, rfl⟩ | ⟨-, rfl⟩⟩ := Frontend.activateDone_spec h
      · exact Frontend.drained_of_not_switching rfl _
      · unfold Frontend.bindAndReply
        split <;> exact Frontend.drained_of_not_switching rfl _
  | inferred now outcome =>
      simp only [Frontend.next, Frontend.inferDone] at h
      split at h
      · split at h <;>
        · obtain rfl := Option.some.inj h
          exact Frontend.drained_of_not_switching rfl _
      · contradiction

/-- A step keeps the session table in order. -/
theorem inOrder_step {cfg : Config} {s s' : Clocked} {i : Input} {sent : List Sent}
    (hs : InOrder s) (h : (clocked cfg).step s i = some (s', sent)) : InOrder s' := by
  obtain ⟨hchain, hnext, hclock⟩ := clocked_step h
  refine ⟨Frontend.next_consistent hs.consistent hnext, ?_⟩
  rw [hclock]
  exact next_drained hs.drained hchain hnext

/-- What a step does to the generation: it adds one at a switch, whose clock reading finds
every binding of the current generation unused for {lit}`QUIESCENCE_S`, and nothing at any
other step. -/
def SwitchesQuietly (cfg : Config) (s : Clocked) (i : Input) : Prop :=
  ∀ s' sent, (clocked cfg).step s i = some (s', sent) →
    s'.frontend.generation =
        (if s.frontend.isSwitch i then s.frontend.generation + 1
          else s.frontend.generation) ∧
      (s.frontend.isSwitch i = true →
        ∀ b ∈ s.frontend.sessions.byIdentity, b.generation = s.frontend.generation →
          quiescence ≤ s'.clock - b.lastUsedAt)

/-- A step from a session table in order switches quietly. -/
theorem switchesQuietly_of_inOrder {cfg : Config} {s : Clocked} (i : Input)
    (hs : InOrder s) : SwitchesQuietly cfg s i := by
  intro s' sent h
  obtain ⟨hchain, hnext, hclock⟩ := clocked_step h
  refine ⟨Frontend.next_generation hnext, fun hswitch b hb hgen => ?_⟩
  unfold Frontend.isSwitch at hswitch
  split at hswitch
  · rename_i now emitFault
    have hle : s.clock ≤ now := by simpa [Input.readings] using hchain
    have hdone : s.frontend.activateDone now emitFault (.ok true) = some (s'.frontend, sent) :=
      hnext
    obtain ⟨m, t, hphase, -⟩ := Frontend.activateDone_spec hdone
    have hquiet := hs.drained.mono hle (by rw [hphase]; rfl) hswitch
    unfold SessionTable.isQuiescent at hquiet
    have hrow := List.all_eq_true.mp hquiet b hb
    rw [hclock]
    simpa [hgen, Input.readings] using hrow
  · contradiction

/-- **The session table stays consistent.**  In every state of every run, whatever the
messages and the results of the activations are, every binding is of the current
generation and names the active artifact; and every step of the run changes the generation
by exactly one at a switch and not otherwise, where a switch only happens when no binding
of the current generation was used within {lit}`QUIESCENCE_S`. -/
theorem sessions_consistent (cfg : Config) (clock : Int) (is : List Input) :
    (clocked cfg).Throughout (fun s => s.frontend.Consistent) is ⟨{}, clock⟩ ∧
      (clocked cfg).Along (SwitchesQuietly cfg) is ⟨{}, clock⟩ := by
  have hkeep : ∀ s i s' sent, InOrder s → (clocked cfg).step s i = some (s', sent) →
      InOrder s' := fun s i s' sent hs h => inOrder_step hs h
  have hfresh : InOrder ⟨{}, clock⟩ :=
    ⟨Frontend.consistent_fresh, Frontend.drained_of_not_switching rfl clock⟩
  exact ⟨Machine.throughout_of_invariant hkeep (fun s hs => hs.consistent) is hfresh,
    Machine.along_of_keeps hkeep (fun s i hs => switchesQuietly_of_inOrder i hs) is hfresh⟩

end Transport
end FrigateXdna
