import FrigateXdna.System.Progress

/-!
# Which model serves whom

The frontend's bindings, its generation and active artifact, and the supervisor's
resident worker are updated by clients, by admin activations and by worker drops.
{lit}`System.expected` is the compile key the frontend stands for: its active
artifact, or the one of a finished activation it has yet to resume on.

Main results:

- Theorem {lit}`System.effect_coupled`: the activation in flight and its result
  belong to the waiting handler.
- Theorem {lit}`System.effect_agrees`: without a foreign swap the resident worker
  is the expected one, or there is none.
- Theorem {lit}`System.served_bound`: then every inference is computed by the model
  its client is bound to.
- Theorem {lit}`System.readiness_honest`: without a drop as well, every client that
  is told its model is loaded has it loaded.
-/

namespace FrigateXdna
namespace System

open Python Library FrigateXdna.Runtime FrigateXdna.Transport

/-! ## The waiting handler and its activation -/

/-- An activation of the frontend, and its result, belong to the handler that
waits for it. -/
structure Coupled (s : System) : Prop where
  pending : ∀ p, s.pending = some p → p.caller = .frontend → s.activated = none ∧
    ∃ m t, s.frontend.phase = .activating m t ∧ p.compileKey = t.compileKey
  activated : s.activated ≠ none → ∃ m t, s.frontend.phase = .activating m t

theorem coupled_fresh (r : Registry) : (fresh r).Coupled where
  pending p h := by simp [fresh] at h
  activated h := absurd rfl h

/-- Every step keeps the activation with its handler. -/
theorem effect_coupled {s s' : System} {l : Label} {es : List Event}
    (h : Effect s l s' es) (hs : s.Coupled) : s'.Coupled := by
  cases h with
  | handled sup inferred r hsup h =>
      refine ⟨?_, ?_⟩
      · intro p hp hcaller
        obtain ⟨hnone, m, t, hphase, hkey⟩ := hs.pending p hp hcaller
        exact ⟨hnone, m, t, (h.activating m t hphase).trans hphase, hkey⟩
      · intro hactivated
        obtain ⟨m, t, hphase⟩ := hs.activated hactivated
        exact ⟨m, t, (h.activating m t hphase).trans hphase⟩
  | device sup probe es hsup hes => exact ⟨hs.pending, hs.activated⟩
  | adminStarted sup p es hsup hcaller hes =>
      refine ⟨?_, hs.activated⟩
      intro q hq hfrontend
      obtain rfl := Option.some.inj hq
      rw [hcaller] at hfrontend
      contradiction
  | started env sup p m t es hsup hphase hactivated hkey hes =>
      refine ⟨?_, hs.activated⟩
      intro q hq _
      obtain rfl := Option.some.inj hq
      exact ⟨hactivated, m, t, hphase, hkey⟩
  | returned env sup m t result hsup hphase hpending hactivated hresult =>
      refine ⟨?_, fun _ => ⟨m, t, hphase⟩⟩
      intro p hp
      rw [show s.pending = none from hpending] at hp
      contradiction
  | swapped env p sup result es hpending hswap hsup hresult hes =>
      refine ⟨fun q hq => by simp at hq, ?_⟩
      intro hactivated
      by_cases hcaller : p.caller = .frontend
      · obtain ⟨-, m, t, hphase, -⟩ := hs.pending p hpending hcaller
        exact ⟨m, t, hphase⟩
      · simp only [hcaller, if_false] at hactivated
        exact hs.activated hactivated
  | failed env p sup result es hpending hsup hresult hes =>
      refine ⟨fun q hq => by simp at hq, ?_⟩
      intro hactivated
      by_cases hcaller : p.caller = .frontend
      · obtain ⟨-, m, t, hphase, -⟩ := hs.pending p hpending hcaller
        exact ⟨m, t, hphase⟩
      · simp only [hcaller, if_false] at hactivated
        exact hs.activated hactivated
  | resumed now emitFault outcome r houtcome h =>
      refine ⟨?_, fun hactivated => absurd rfl hactivated⟩
      intro p hp hcaller
      rw [(hs.pending p hp hcaller).1] at houtcome
      contradiction
  | served env m shape remain sup result hphase hsup hloaded =>
      exact ⟨hs.pending, hs.activated⟩
  | unserved env sup result hsup => exact ⟨hs.pending, hs.activated⟩
  | dropped env m shape remain sup result hphase hfail hsup =>
      exact ⟨hs.pending, hs.activated⟩
  | restarted after sup hsup =>
      exact ⟨fun p hp => by simp at hp, fun hactivated => absurd rfl hactivated⟩

/-- Every step keeps the binding invariant of the frontend. -/
theorem effect_bindings {s s' : System} {l : Label} {es : List Event}
    (h : Effect s l s' es) (hs : s.frontend.Bindings) : s'.frontend.Bindings := by
  cases h with
  | handled sup inferred r hsup h => exact h.bindings hs
  | resumed now emitFault outcome r houtcome h =>
      exact Frontend.activateDone_bindings h hs
  | restarted after sup hsup => exact Frontend.bindings_fresh
  | _ => exact hs

/-! ## The expected model -/

/-- The compile key the frontend stands for. -/
def expected (s : System) : Option PyStr :=
  match s.frontend.phase, s.activated with
  | .activating _ t, some (.ok true) => some t.compileKey
  | _, _ => s.frontend.activeArtifact

/-- Without a successful result in waiting the frontend stands for its active
artifact. -/
theorem expected_of_activated {s : System} (h : s.activated ≠ some (.ok true)) :
    s.expected = s.frontend.activeArtifact := by
  unfold expected
  split
  · rename_i hactivated
    exact absurd hactivated h
  · rfl

theorem expected_of_phase {s : System} (h : ∀ m t, s.frontend.phase ≠ .activating m t) :
    s.expected = s.frontend.activeArtifact := by
  unfold expected
  split
  · rename_i hphase _
    exact absurd hphase (h _ _)
  · rfl

theorem expected_activating {s : System} {m : Message} {t : Transfer}
    (hphase : s.frontend.phase = .activating m t)
    (hactivated : s.activated = some (.ok true)) : s.expected = some t.compileKey := by
  simp [expected, hphase, hactivated]

/-- A step that keeps the phase while an activation waits, its result and the
active artifact keeps what the frontend stands for. -/
theorem expected_congr {s s' : System} (hs : s.Coupled)
    (hactivated : s'.activated = s.activated)
    (hactive : s'.frontend.activeArtifact = s.frontend.activeArtifact)
    (hphase : ∀ m t, s.frontend.phase = .activating m t →
      s'.frontend.phase = s.frontend.phase) :
    s'.expected = s.expected := by
  by_cases h : s.activated = some (.ok true)
  · obtain ⟨m, t, hp⟩ := hs.activated (by simp [h])
    rw [expected_activating hp h,
      expected_activating ((hphase m t hp).trans hp) (hactivated.trans h)]
  · rw [expected_of_activated h, expected_of_activated (by rwa [hactivated]), hactive]

/-- A swap of the resident worker that the frontend knows about: to the model it
stands for, at a time when it stands for none, or by its own activation, which
then returns true. -/
def SwapAgrees (s : System) : Label → Prop
  | .finish env =>
      ∀ p, s.pending = some p → swaps env p.spec p.generation p.child = true →
        s.expected = none ∨ s.expected = some p.compileKey ∨
          (p.caller = .frontend ∧
            settles env p.compileKey s.sup.registry = true)
  | _ => True

/-- After its own successful activation the frontend stands for the new model. -/
theorem expected_of_success {s : System} (hs : s.Coupled) {p : Pending}
    (hpending : s.pending = some p) (hcaller : p.caller = .frontend)
    (sup : Supervisor) (replaced : List PyStr) :
    expected { s with
        sup, pending := none, activated := some (.ok true), replaced } =
      some p.compileKey := by
  obtain ⟨-, m, t, hphase, hkey⟩ := hs.pending p hpending hcaller
  rw [hkey]
  exact expected_activating hphase rfl

/-- After any other end of an activation the frontend stands for what it did. -/
theorem expected_of_failure {s : System} (hs : s.Coupled) {p : Pending}
    (hpending : s.pending = some p) {result : Except Raised Bool}
    (h : p.caller = .frontend → result ≠ .ok true) (sup : Supervisor)
    (replaced : List PyStr) :
    expected { s with
        sup
        pending := none
        activated := if p.caller = .frontend then some result else s.activated
        replaced } = s.expected := by
  by_cases hcaller : p.caller = .frontend
  · have hnone := (hs.pending p hpending hcaller).1
    rw [expected_of_activated (by simpa [hcaller] using h hcaller),
      expected_of_activated (by simp [hnone])]
  · simp only [hcaller, if_false]
    rfl

/-- What the frontend stands for does not change when it resumes. -/
theorem expected_resumed {s : System} {now : Int} {emitFault : Option PyExc}
    {outcome : Except Raised Bool} {r : Frontend × List Sent} (replaced : List PyStr)
    (houtcome : s.activated = some outcome)
    (h : s.frontend.activateDone now emitFault outcome = some r) :
    expected { s with activated := none, replaced, frontend := r.1 } =
      s.expected := by
  rw [expected_of_activated (by simp)]
  obtain ⟨m, t, hphase, ⟨hne, rfl⟩ | ⟨hok, rfl⟩⟩ := Frontend.activateDone_spec h
  · rw [expected_of_activated (by rw [houtcome]; simpa using hne)]
    rfl
  · rw [expected_activating hphase (by rw [houtcome, hok])]
    exact (Frontend.bindAndReply_spec _ m t now emitFault).1.trans
      (Frontend.activated_active s.frontend t)

/-- What a swap leaves the frontend standing for, when the swap agrees with it. -/
theorem expected_of_swap {s : System} (hs : s.Coupled) {env : FinishEnv} {p : Pending}
    (hpending : s.pending = some p)
    (hswap : swaps env p.spec p.generation p.child = true)
    (hG : SwapAgrees s (.finish env)) {result : Except Raised Bool}
    (hresult : result = .ok true ↔ settles env p.compileKey s.sup.registry = true)
    (sup : Supervisor) (replaced : List PyStr) :
    expected { s with
        sup
        pending := none
        activated := if p.caller = .frontend then some result else s.activated
        replaced } ∈ [none, some p.compileKey] := by
  by_cases hself : p.caller = .frontend ∧ result = .ok true
  · obtain ⟨hcaller, rfl⟩ := hself
    simp only [hcaller, if_true]
    rw [expected_of_success hs hpending hcaller]
    simp
  · rw [expected_of_failure hs hpending (fun hc hr => hself ⟨hc, hr⟩)]
    rcases hG p hpending hswap with hnone | hsame | ⟨hcaller, hsettles⟩
    · simp [hnone]
    · simp [hsame]
    · exact absurd ⟨hcaller, hresult.mpr hsettles⟩ hself

/-! ## The resident worker is the expected one -/

/-- A step keeps the resident worker and what the frontend stands for, or it swaps
the worker, or an inference drops it, or the process restarts. -/
theorem effect_resident {s s' : System} {l : Label} {es : List Event}
    (h : Effect s l s' es) (hcoupled : s.Coupled) :
    (s'.sup.resident = s.sup.resident ∧ s'.expected = s.expected) ∨
    (∃ p : Pending, s'.sup.resident = some p.compileKey ∧
      (SwapAgrees s l → s'.expected ∈ [none, some p.compileKey])) ∨
    (∃ env, ∃ m : Message, ∃ shape remain, l = .infer env ∧
      s.frontend.phase = .forwarding m shape remain ∧
      inferFailure env m.data shape remain s.sup ≠ none ∧ s'.sup.resident = none) ∨
    (s'.sup.resident = none ∧ s'.expected = none) := by
  cases h with
  | handled sup inferred r hsup h =>
      exact Or.inl ⟨hsup, expected_congr hcoupled rfl h.active h.activating⟩
  | device sup probe es hsup hes => exact Or.inl ⟨hsup, rfl⟩
  | adminStarted sup p es hsup hcaller hes => exact Or.inl ⟨hsup, rfl⟩
  | started env sup p m t es hsup hphase hactivated hkey hes => exact Or.inl ⟨hsup, rfl⟩
  | returned env sup m t result hsup hphase hpending hactivated hresult =>
      refine Or.inl ⟨hsup, ?_⟩
      rw [expected_of_activated (by simpa using hresult),
        expected_of_activated (by simp [hactivated])]
  | swapped env p sup result es hpending hswap hsup hresult hes =>
      exact Or.inr (Or.inl ⟨p, hsup, fun hG =>
        expected_of_swap hcoupled hpending hswap hG hresult sup _⟩)
  | failed env p sup result es hpending hsup hresult hes =>
      exact Or.inl ⟨hsup,
        expected_of_failure hcoupled hpending (fun _ => hresult) sup s.replaced⟩
  | resumed now emitFault outcome r houtcome h =>
      exact Or.inl ⟨rfl, expected_resumed _ houtcome h⟩
  | served env m shape remain sup result hphase hsup hloaded => exact Or.inl ⟨hsup, rfl⟩
  | unserved env sup result hsup => exact Or.inl ⟨hsup, rfl⟩
  | dropped env m shape remain sup result hphase hfail hsup =>
      exact Or.inr (Or.inr (Or.inl ⟨env, m, shape, remain, rfl, hphase, hfail, hsup⟩))
  | restarted after sup hsup => exact Or.inr (Or.inr (Or.inr ⟨hsup, rfl⟩))

/-- There is no loaded worker, the frontend stands for no model, or the loaded
worker is the one it stands for. -/
def Agrees (s : System) : Prop :=
  s.sup.resident = none ∨ s.expected = none ∨ s.sup.resident = s.expected

/-- A step that does not swap behind the frontend's back keeps the agreement. -/
theorem effect_agrees {s s' : System} {l : Label} {es : List Event}
    (h : Effect s l s' es) (hcoupled : s.Coupled) (hs : s.Agrees)
    (hG : SwapAgrees s l) : s'.Agrees := by
  unfold Agrees
  rcases effect_resident h hcoupled with
    ⟨hresident, hexpected⟩ | ⟨p, hresident, hexpected⟩ | ⟨-, -, -, -, -, -, -, hnone⟩ |
    ⟨hnone, -⟩
  · rw [hresident, hexpected]
    exact hs
  · rcases List.mem_pair.mp (hexpected hG) with hnone | hsame
    · exact Or.inr (Or.inl hnone)
    · exact Or.inr (Or.inr (hresident.trans hsame.symm))
  · exact Or.inl hnone
  · exact Or.inl hnone

/-! ## Served inferences -/

/-- The invariants of a run without a foreign swap. -/
structure Serving (s : System) : Prop where
  coupled : s.Coupled
  bindings : s.frontend.Bindings
  agrees : s.Agrees

theorem serving_fresh (r : Registry) : (fresh r).Serving where
  coupled := coupled_fresh r
  bindings := Frontend.bindings_fresh
  agrees := Or.inl rfl

/-- The key of a bound identity is the active artifact. -/
theorem boundKey_of_bound {f : Frontend} {identity : Bytes} (hb : f.Bindings)
    (h : f.Bound identity) :
    ∃ key, boundKey f identity = some key ∧ f.activeArtifact = some key := by
  obtain ⟨b, hget, hactive⟩ := hb.active h
  exact ⟨b.compileKey, by simp [boundKey, hget], hactive⟩

/-- A served inference was computed by the model its identity is bound to. -/
def servedBound : Event → Prop
  | .served bound resident => bound.isSome ∧ bound = resident
  | _ => True

theorem servedBound_of_device {e : Event} (h : deviceEvent e) : servedBound e := by
  cases e <;> trivial

theorem servedBound_replies (resident : Option PyStr) (r : Frontend × List Sent) :
    ∀ e ∈ replies resident r, servedBound e := by
  intro e he
  obtain ⟨x, -, rfl⟩ := List.mem_map.mp he
  trivial

/-- One step without a foreign swap serves only bound models. -/
theorem effect_servedBound {s s' : System} {l : Label} {es : List Event}
    (h : Effect s l s' es) (hs : s.Serving) : ∀ e ∈ es, servedBound e := by
  cases h with
  | handled sup inferred r hsup h => exact servedBound_replies _ r
  | device sup probe es hsup hes => exact fun e he => servedBound_of_device (hes e he)
  | adminStarted sup p es hsup hcaller hes =>
      exact fun e he => servedBound_of_device (hes e he)
  | started env sup p m t es hsup hphase hactivated hkey hes =>
      exact fun e he => servedBound_of_device (hes e he)
  | swapped env p sup result es hpending hswap hsup hresult hes =>
      intro e he
      rcases List.mem_append.mp he with he | he
      · exact servedBound_of_device (hes e he)
      · obtain rfl := List.mem_singleton.mp he
        trivial
  | failed env p sup result es hpending hsup hresult hes =>
      exact fun e he => servedBound_of_device (hes e he)
  | resumed now emitFault outcome r houtcome h => exact servedBound_replies _ r
  | served env m shape remain sup result hphase hsup hloaded =>
      intro e he
      obtain rfl := List.mem_singleton.mp he
      obtain ⟨key, hbound, hactive⟩ :=
        boundKey_of_bound hs.bindings (hs.bindings.forwarding m shape remain hphase)
      have hexpected : s.expected = some key :=
        (expected_of_phase (by simp [hphase])).trans hactive
      have hresident : s.sup.resident = some key := by
        rcases hs.agrees with hnone | hnone | hsame
        · exact absurd hnone hloaded
        · rw [hexpected] at hnone
          contradiction
        · exact hsame.trans hexpected
      rw [hbound, hresident]
      exact ⟨rfl, rfl⟩
  | _ => simp

/-- **Served model equals bound model.**  In every run whose swaps of the resident
worker all agree with the frontend, every inference that returns a result was
computed by the model its client's identity is bound to. -/
theorem served_bound {cfg : Config} {r : Registry} {as : List Label} {t : System}
    {es : List Event} (hG : (machine cfg).Along SwapAgrees as (fresh r))
    (hrun : (machine cfg).exec as (fresh r) = some (t, es)) {bound resident : Option PyStr}
    (he : .served bound resident ∈ es) : bound.isSome ∧ bound = resident := by
  refine ((machine cfg).exec_events_of_along (I := Serving) (P := servedBound) ?_
    (serving_fresh r) hG hrun).2 _ he
  intro s a s' es hs hG hstep
  have heffect := step_effect hstep
  exact ⟨⟨effect_coupled heffect hs.coupled, effect_bindings heffect hs.bindings,
    effect_agrees heffect hs.coupled hs.agrees hG⟩, effect_servedBound heffect hs⟩

/-- After an explicit activation of another model, a bound identity is served by
that model. -/
theorem foreign_model_served :
    ∃ as t es, (machine uploadConfig).exec as (fresh twoModels) = some (t, es) ∧
      .served (some (py "a")) (some (py "b")) ∈ es := by
  obtain ⟨as₁, t₁, es₁, hrun₁, ht₁, -, -⟩ := first_transfer (G := fun _ _ => True)
    (fun _ _ _ _ => trivial) (fun _ _ _ => trivial) (fun _ _ => trivial)
    (fun _ _ _ => trivial) (fun _ _ _ => trivial) (fun _ _ _ _ => trivial)
  have hgeneration : t₁.sup.workerGeneration + 1 = 2 := by
    rw [ht₁.generation]
    rfl
  obtain ⟨state, hstate⟩ := ht₁.resting.tables
  obtain ⟨t₂, hrun₂, hrest₂, hfrontend, hworker, -⟩ := admin_run ht₁.resting
    (cleanActivation (py "b") (t₁.sup.workerGeneration + 1) (by decide)
      (by rw [hgeneration]; decide +kernel))
    (show activateKey uploadConfig true false plainFiles (py "plus://b") _ = .ok _ by
      rw [hstate]; exact activateKey_second state) (G := fun _ _ => True) trivial trivial
  have hworker₂ : t₂.sup.worker = some
      ⟨t₁.sup.nextPid, loadedNative (t₁.sup.workerGeneration + 1), py "b"⟩ := hworker
  rw [hgeneration] at hworker₂
  obtain ⟨out, hinfer⟩ := workerInfer_answered hworker₂ (by decide +kernel)
    (Int.le_max_right ((0 : Int) + modelOpDeadline - 0) 0)
  have hserved : ∃ t, (machine uploadConfig).Run (fun _ _ => True) t₂ _ t _ :=
    infer_run hrest₂ (cleanInfer [1]) (by rw [hfrontend]; exact ht₁.bound) 0 (by decide)
      (by decide) hinfer (fun _ _ _ _ => trivial) (fun _ _ _ => trivial) fun _ => trivial
  obtain ⟨t₃, hrun₃⟩ := hserved
  have hbound : boundKey t₂.frontend (cleanInfer [1]).message.identity =
      some (py "a") := by
    rw [hfrontend]
    exact ht₁.boundKey
  have hresident : t₂.sup.resident = some (py "b") := by
    rw [Supervisor.resident, hworker₂]
    rfl
  rw [hbound, hresident] at hrun₃
  exact ⟨_, t₃, _, (Machine.exec_append _).mpr ⟨t₂, _, _,
    (Machine.exec_append _).mpr ⟨t₁, _, _, hrun₁.exec, hrun₂.exec, rfl⟩, hrun₃.exec, rfl⟩,
    List.mem_append_right _ List.mem_cons_self⟩

/-- After a transfer alone, the bound identity is served by its own model. -/
theorem own_model_served :
    ∃ as t es, (machine uploadConfig).exec as (fresh twoModels) = some (t, es) ∧
      ∃ bound resident, .served bound resident ∈ es ∧ bound.isSome ∧
        bound = resident := by
  obtain ⟨as₁, t₁, es₁, hrun₁, ht₁, -, -⟩ := first_transfer (G := SwapAgrees)
    (fun _ _ _ _ => trivial) (fun _ _ _ => trivial) (fun _ _ => trivial)
    (fun _ _ _ => trivial) (fun _ _ _ => trivial)
    (fun s env hactive hactivated p _ _ =>
      Or.inl ((expected_of_activated (by simp [hactivated])).trans hactive))
  obtain ⟨out, hinfer⟩ := workerInfer_answered ht₁.worker (by decide +kernel)
    (Int.le_max_right ((0 : Int) + modelOpDeadline - 0) 0)
  have hserved : ∃ t, (machine uploadConfig).Run SwapAgrees t₁ _ t _ :=
    infer_run ht₁.resting (cleanInfer [1]) ht₁.bound 0 (by decide) (by decide) hinfer
      (fun _ _ _ _ => trivial) (fun _ _ _ => trivial) fun _ => trivial
  obtain ⟨t₂, hrun₂⟩ := hserved
  have hrun := hrun₁.append hrun₂
  refine ⟨_, t₂, _, hrun.exec, _, _, List.mem_append_right _ List.mem_cons_self, ?_⟩
  exact served_bound hrun.along hrun.exec (List.mem_append_right _ List.mem_cons_self)

/-! ## Readiness -/

/-- No inference drops the worker. -/
def KeepsWorker (s : System) : Label → Prop
  | .infer env =>
      ∀ m shape remain, s.frontend.phase = .forwarding m shape remain →
        inferFailure env m.data shape remain s.sup = none
  | _ => True

/-- While the frontend stands for a model, that model is loaded. -/
def Ready (s : System) : Prop :=
  ∀ key, s.expected = some key → s.sup.resident = some key

/-- A step that neither swaps behind the frontend's back nor drops the worker keeps
the expected model loaded. -/
theorem effect_ready {s s' : System} {l : Label} {es : List Event}
    (h : Effect s l s' es) (hcoupled : s.Coupled) (hs : s.Ready)
    (hG : SwapAgrees s l) (hK : KeepsWorker s l) : s'.Ready := by
  rcases effect_resident h hcoupled with
    ⟨hresident, hexpected⟩ | ⟨p, hresident, hexpected⟩ |
    ⟨env, m, shape, remain, rfl, hphase, hfail, -⟩ | ⟨-, hnone⟩
  · unfold Ready
    rw [hresident, hexpected]
    exact hs
  · intro key hkey
    rcases List.mem_pair.mp (hexpected hG) with hnone | hsame
    · rw [hnone] at hkey
      contradiction
    · exact hresident.trans (hsame.symm.trans hkey)
  · exact absurd (hK m shape remain hphase) hfail
  · intro key hkey
    rw [hnone] at hkey
    contradiction

/-- The invariants of a run without a foreign swap and without a drop. -/
structure Honest (s : System) : Prop where
  coupled : s.Coupled
  bindings : s.frontend.Bindings
  ready : s.Ready

theorem honest_fresh (r : Registry) : (fresh r).Honest where
  coupled := coupled_fresh r
  bindings := Frontend.bindings_fresh
  ready key h := by simp [fresh, expected] at h

/-- A reply that tells a client its model is loaded goes to a client whose model is
loaded. -/
def loadedHonest : Event → Prop
  | .replied sent bound resident =>
      sent.reply.claimsLoaded = true → bound.isSome ∧ bound = resident
  | _ => True

theorem loadedHonest_of_device {e : Event} (h : deviceEvent e) : loadedHonest e := by
  cases e <;> trivial

/-- Replies to bound identities are honest when the loaded model is the active
one. -/
theorem loadedHonest_replies {resident : Option PyStr} {r : Frontend × List Sent}
    (hb : r.1.Bindings)
    (h : ∀ x ∈ r.2, x.reply.claimsLoaded = true →
      r.1.Bound x.identity ∧ resident = r.1.activeArtifact) :
    ∀ e ∈ replies resident r, loadedHonest e := by
  intro e he
  obtain ⟨x, hx, rfl⟩ := List.mem_map.mp he
  intro hclaims
  obtain ⟨hbound, hresident⟩ := h x hx hclaims
  obtain ⟨key, hkey, hactive⟩ := boundKey_of_bound hb hbound
  rw [hkey, hresident, hactive]
  exact ⟨rfl, rfl⟩

/-- One step replies honestly. -/
theorem effect_loadedHonest {s s' : System} {l : Label} {es : List Event}
    (h : Effect s l s' es) (hs : s.Honest) : ∀ e ∈ es, loadedHonest e := by
  have hresident : ∀ key, s.expected = some key → s.sup.resident = s.expected := by
    intro key hkey
    rw [hkey]
    exact hs.ready key hkey
  cases h with
  | handled sup inferred r hsup h =>
      refine loadedHonest_replies (h.bindings hs.bindings) fun x hx hclaims => ?_
      obtain ⟨hphase, hbound⟩ := h.loaded hs.bindings x hx hclaims
      obtain ⟨key, -, hactive⟩ := boundKey_of_bound (h.bindings hs.bindings) hbound
      have hexpected : s.expected = r.1.activeArtifact :=
        (expected_of_phase hphase).trans h.active.symm
      exact ⟨hbound, (hresident key (hexpected.trans hactive)).trans hexpected⟩
  | device sup probe es hsup hes => exact fun e he => loadedHonest_of_device (hes e he)
  | adminStarted sup p es hsup hcaller hes =>
      exact fun e he => loadedHonest_of_device (hes e he)
  | started env sup p m t es hsup hphase hactivated hkey hes =>
      exact fun e he => loadedHonest_of_device (hes e he)
  | swapped env p sup result es hpending hswap hsup hresult hes =>
      intro e he
      rcases List.mem_append.mp he with he | he
      · exact loadedHonest_of_device (hes e he)
      · obtain rfl := List.mem_singleton.mp he
        trivial
  | failed env p sup result es hpending hsup hresult hes =>
      exact fun e he => loadedHonest_of_device (hes e he)
  | resumed now emitFault outcome r houtcome h =>
      have hb := Frontend.activateDone_bindings h hs.bindings
      refine loadedHonest_replies hb fun x hx hclaims => ?_
      obtain ⟨-, hbound⟩ := Frontend.activateDone_loaded h x hx hclaims
      obtain ⟨key, -, hactive⟩ := boundKey_of_bound hb hbound
      have hexpected : r.1.activeArtifact = s.expected := by
        rw [← expected_resumed s.replacedBy houtcome h,
          expected_of_activated (by simp)]
      rw [hexpected] at hactive
      exact ⟨hbound, (hresident key hactive).trans hexpected.symm⟩
  | served env m shape remain sup result hphase hsup hloaded =>
      intro e he
      obtain rfl := List.mem_singleton.mp he
      trivial
  | _ => simp

/-- **Readiness honesty.**  In every run whose swaps of the resident worker all
agree with the frontend and in which no inference drops the worker, every reply
that tells a client its model is loaded is sent while the model it is bound to is
loaded. -/
theorem readiness_honest {cfg : Config} {r : Registry} {as : List Label} {t : System}
    {es : List Event}
    (hG : (machine cfg).Along (fun s l => SwapAgrees s l ∧ KeepsWorker s l) as (fresh r))
    (hrun : (machine cfg).exec as (fresh r) = some (t, es)) {sent : Sent}
    {bound resident : Option PyStr} (he : .replied sent bound resident ∈ es)
    (hclaims : sent.reply.claimsLoaded = true) : bound.isSome ∧ bound = resident := by
  refine ((machine cfg).exec_events_of_along (I := Honest) (P := loadedHonest) ?_
    (honest_fresh r) hG hrun).2 _ he hclaims
  intro s a s' es hs hG hstep
  have heffect := step_effect hstep
  exact ⟨⟨effect_coupled heffect hs.coupled, effect_bindings heffect hs.bindings,
    effect_ready heffect hs.coupled hs.ready hG.1 hG.2⟩, effect_loadedHonest heffect hs⟩

/-- After a worker drop, a bound identity is still told that its model is
available. -/
theorem dropped_model_available :
    ∃ as t es, (machine uploadConfig).exec as (fresh twoModels) = some (t, es) ∧
      ∃ sent, sent.reply.claimsLoaded = true ∧
        .replied sent (some (py "a")) none ∈ es := by
  obtain ⟨as₁, t₁, es₁, hrun₁, ht₁, -, -⟩ := first_transfer (G := fun _ _ => True)
    (fun _ _ _ _ => trivial) (fun _ _ _ => trivial) (fun _ _ => trivial)
    (fun _ _ _ => trivial) (fun _ _ _ => trivial) (fun _ _ _ _ => trivial)
  have hdrop : ∃ t es, (machine uploadConfig).exec _ t₁ = some (t, es) ∧ _ :=
    drop_run ht₁.resting (cleanInfer [1]) ht₁.bound 0 (by decide) (by decide)
      (show deadInfer.alive = false from rfl) rfl rfl ht₁.worker rfl
  obtain ⟨t₂, es₂, hrun₂, hrest₂, hworker, hactive, hbound, hkey⟩ := hdrop
  have hasked : ∃ t sent, (machine uploadConfig).exec _ t₂ = some (t, _) ∧ _ :=
    request_run hrest₂ (cleanRequest [1]) hbound (by decide : py "a" ≠ [])
      (hactive.trans ht₁.active) 0 (by decide)
  obtain ⟨t₃, sent, hrun₃, hclaims⟩ := hasked
  have hbound₃ : boundKey t₂.frontend (cleanRequest [1]).message.identity =
      some (py "a") :=
    hkey.trans ht₁.boundKey
  have hresident : t₂.sup.resident = none := by
    rw [Supervisor.resident, hworker]
    rfl
  rw [hbound₃, hresident] at hrun₃
  exact ⟨_, t₃, _, (Machine.exec_append _).mpr ⟨t₂, _, _,
    (Machine.exec_append _).mpr ⟨t₁, _, _, hrun₁.exec, hrun₂, rfl⟩, hrun₃, rfl⟩,
    sent, hclaims, List.mem_append_right _ List.mem_cons_self⟩

/-- A transfer alone is answered honestly. -/
theorem transfer_honest :
    ∃ as t es, (machine uploadConfig).exec as (fresh twoModels) = some (t, es) ∧
      ∃ sent bound resident, sent.reply.claimsLoaded = true ∧
        .replied sent bound resident ∈ es ∧ bound.isSome ∧ bound = resident := by
  obtain ⟨as, t, es, hrun, ht, -, sent, hclaims, hsent⟩ := first_transfer
    (G := fun s l => SwapAgrees s l ∧ KeepsWorker s l)
    (fun _ _ _ _ => ⟨trivial, trivial⟩) (fun _ _ _ => ⟨trivial, trivial⟩)
    (fun _ _ => ⟨trivial, trivial⟩) (fun _ _ _ => ⟨trivial, trivial⟩)
    (fun _ _ _ => ⟨trivial, trivial⟩)
    (fun s env hactive hactivated => ⟨fun p _ _ =>
      Or.inl ((expected_of_activated (by simp [hactivated])).trans hactive), trivial⟩)
  exact ⟨as, t, es, hrun.exec, sent, _, _, hclaims, hsent,
    readiness_honest hrun.along hrun.exec hsent hclaims⟩

end System
end FrigateXdna
