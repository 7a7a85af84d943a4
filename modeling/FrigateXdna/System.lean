import FrigateXdna.Library.Transition
import FrigateXdna.Supervisor.Recovery
import FrigateXdna.Transport.Bindings

/-!
# The daemon: frontend, supervisor, admin and compile threads

The whole daemon as a labelled machine.  The state joins the frontend, the
supervisor, an activation that holds the worker lock while its LOAD runs, the
results of finished calls that the frontend has not resumed on yet, and the
artifact probe of a compile thread.  A step is one uninterruptible piece of one
thread, so a run is any interleaving of clients, admin requests, activations,
inferences, probes, recoveries and restarts.  Everything the outside decides is in
the label.

Other registry work (prepare, pump, retries) is a label that may change every
table but leaves {lit}`service_state` alone.

Main results:

- Definition {lit}`System.machine`: the machine.
- Theorem {lit}`System.step_inhibition`: everything a step can do to the
  inhibition record.
- Theorem {lit}`System.step_effect`: everything a step can do to the frontend, the
  resident worker and the activation in flight.
-/

namespace FrigateXdna

open Python Library FrigateXdna.Runtime FrigateXdna.Transport

/-! ## Activation by ref -/

/-- {lit}`activate` up to {lit}`activate_worker`; {lit}`busy` is
{lit}`compile_in_flight()`. -/
def activateKey (cfg : Config) (maintenance busy : Bool) (env : RefEnv) (arg : PyStr)
    (r : Registry) : Except FxdnaError PyStr :=
  if !maintenance && busy then
    .error ⟨exitDeviceUnavailable, py "DEVICE_BUSY",
      py "compile in flight; retry when idle or pass maintenance explicitly"⟩
  else
    match parseRef env cfg.modelDir arg with
    | .error e => .error e
    | .ok parsed =>
        match r.preparedKey parsed.ref with
        | none =>
            .error ⟨exitNotReady, py "NOT_PREPARED",
              py "no prepared artifact for " ++ parsed.ref⟩
        | some key => .ok key

/-! ## State -/

/-- Who called {lit}`activate_worker`. -/
inductive Caller
  | frontend
  | admin
deriving DecidableEq, Repr

/-- An activation that holds the worker lock and is about to send its LOAD. -/
structure Pending where
  caller : Caller
  compileKey : PyStr
  spec : ActivationSpec
  generation : Int
  child : Child

/-- A running {lit}`probe_artifact`, which holds the device lease. -/
structure Probe where
  child : Child
  loadSent : Bool

/-- The daemon.  {lit}`activated` and {lit}`inferred` are results the frontend has
not resumed on; {lit}`replaced`, ghost data, lists the models that an automatic
switch replaced and that no admin activated since. -/
structure System where
  sup : Supervisor := {}
  frontend : Frontend := {}
  pending : Option Pending := none
  activated : Option (Except Raised Bool) := none
  inferred : Option (Except Raised (InferStatus × Bytes)) := none
  probe : Option Probe := none
  replaced : List PyStr := []

/-- What a step lets an observer see: a reply, with the compile key its identity is
bound to and the one the loaded resident worker serves; a served inference, with
the same two; a spawned child and a LOAD sent to a child, with whether an
inhibition record exists; and a swap of the resident worker, with whether it makes
a replaced model active again. -/
inductive Event
  | replied (sent : Sent) (bound resident : Option PyStr)
  | served (bound resident : Option PyStr)
  | spawned (inhibited : Bool)
  | loadSent (inhibited : Bool)
  | switched (caller : Caller) (compileKey : PyStr) (again : Bool)

/-- One piece of one thread. -/
inductive Label
  | receive (limit : Nat) (now : Int) (parts : List Bytes)
  | take (env : Frontend.TakeEnv) (after : Registry)
  | usable (files : ArtifactFiles)
  | start (env : StartEnv)
  | admin (maintenance busy : Bool) (refEnv : RefEnv) (arg : PyStr) (env : StartEnv)
  | finish (env : FinishEnv)
  | resumeActivate (now : Int) (emitFault : Option PyExc)
  | infer (env : InferEnv)
  | resumeInfer (now : Int)
  | recover (refEnv : RefEnv) (fault : Option PyExc) (now : Int) (after : Registry)
      (arg : PyStr)
  | probeStart (lease : Bool) (spawn : Except Raised Unit)
  | probeLoad (env : ExchangeEnv) (raiPath : PyStr) (classCount timeout : Int)
  | probeEnd
  | registry (after : Registry)
  | restart (after : Registry)

namespace System

/-- Whether an inhibition record exists. -/
def inhibited (s : System) : Bool :=
  s.sup.registry.state.inhibition.isSome

/-- The compile key an identity is bound to. -/
def boundKey (f : Frontend) (identity : Bytes) : Option PyStr :=
  (f.sessions.get identity).map Binding.compileKey

/-- Whether the frontend holds the device lease. -/
def frontendHoldsLease (s : System) : Bool :=
  match s.frontend.phase with
  | .checking _ _ => true
  | .activating _ _ => true
  | _ => false

/-- The registry after work that leaves the service state alone. -/
def keepState (after r : Registry) : Registry :=
  { after with state := r.state }

/-- The system after a step of the frontend, with its replies. -/
def afterFrontend (s : System) (r : Frontend × List Sent) : System × List Event :=
  ({ s with frontend := r.1 },
    r.2.map fun x => .replied x (boundKey r.1 x.identity) s.sup.resident)

/-- A LOAD is sent when its call writes something to the child's socket. -/
def loadEvents (written : Bytes) (s : System) : List Event :=
  if written.isEmpty then [] else [.loadSent s.inhibited]

/-- The first half of an activation. -/
def startActivation (cfg : Config) (caller : Caller) (compileKey : PyStr)
    (env : StartEnv) (s : System) : System × List Event :=
  match activateStart cfg env compileKey s.sup with
  | (.returned result, sup) =>
      ({ s with
          sup
          activated := if caller = .frontend then some result else s.activated }, [])
  | (.loading spec generation child, sup) =>
      ({ s with sup, pending := some ⟨caller, compileKey, spec, generation, child⟩ },
        [.spawned s.inhibited])

/-- The second half of an activation. -/
def finishActivation (env : FinishEnv) (p : Pending) (s : System) :
    System × List Event :=
  let r := activateFinish env p.compileKey p.spec p.generation p.child s.sup
  let swapped := swaps env p.spec p.generation p.child
  ({ s with
      sup := r.2
      pending := none
      activated := if p.caller = .frontend then some r.1 else s.activated
      replaced :=
        if p.caller = .admin && swapped then s.replaced.filter (· != p.compileKey)
        else s.replaced },
    s.loadEvents (p.child.native.tracedLoad env.load p.spec.raiPath p.generation
      p.spec.servingDigest p.spec.classCount loadTimeout).2 ++
    (if swapped then
      [.switched p.caller p.compileKey (s.replaced.contains p.compileKey)] else []))

/-- The models replaced once the frontend resumes on the result of its
activation. -/
def replacedBy (s : System) : List PyStr :=
  match s.activated, s.frontend.activeArtifact with
  | some (.ok true), some old => old :: s.replaced
  | _, _ => s.replaced

/-- The step function. -/
def step (cfg : Config) (s : System) : Label → Option (System × List Event)
  | .receive limit now parts =>
      if s.frontend.serving then
        some (s.afterFrontend (s.frontend.receive limit now parts))
      else none
  | .take env after =>
      match s.frontend.take cfg { env with lease := env.lease && s.probe.isNone } with
      | none => none
      | some r =>
          some ({ s with
              sup := { s.sup with
                registry := keepState after s.sup.registry } }.afterFrontend r)
  | .usable files => (s.frontend.usableDone (artifactUsable files)).map s.afterFrontend
  | .start env =>
      match s.frontend.phase, s.pending, s.activated with
      | .activating _ t, none, none =>
          some (s.startActivation cfg .frontend t.compileKey env)
      | _, _, _ => none
  | .admin maintenance busy refEnv arg env =>
      match s.pending with
      | some _ => none
      | none =>
          match activateKey cfg maintenance busy refEnv arg s.sup.registry with
          | .error _ => some (s, [])
          | .ok key => some (s.startActivation cfg .admin key env)
  | .finish env => s.pending.map fun p => s.finishActivation env p
  | .resumeActivate now emitFault =>
      match s.activated with
      | none => none
      | some outcome =>
          (s.frontend.activateDone now emitFault outcome).map
            { s with activated := none, replaced := s.replacedBy }.afterFrontend
  | .infer env =>
      match s.frontend.phase, s.inferred, s.pending with
      | .forwarding m shape remain, none, none =>
          let r := workerInfer env m.data shape remain s.sup
          some ({ s with sup := r.2, inferred := some r.1 },
            match r.1 with
            | .ok (.ok, _) => [.served (boundKey s.frontend m.identity) s.sup.resident]
            | _ => [])
      | _, _, _ => none
  | .resumeInfer now =>
      match s.inferred with
      | none => none
      | some outcome =>
          (s.frontend.inferDone now outcome).map
            { s with inferred := none }.afterFrontend
  | .recover refEnv fault now after arg =>
      let requeue : Requeue := fun _ _ r => (.ok (false, []), keepState after r)
      let r := recoverRef refEnv cfg.modelDir fault now requeue arg s.sup.registry
      some ({ s with sup := { s.sup with registry := r.2 } }, [])
  | .probeStart lease spawn =>
      match s.probe with
      | some _ => none
      | none =>
          if lease && !s.frontendHoldsLease && spawn.toBool then
            some ({ s with
                probe := some ⟨⟨s.sup.nextPid, .spawned, []⟩, false⟩
                sup := { s.sup with nextPid := s.sup.nextPid + 1 } },
              [.spawned s.inhibited])
          else some (s, [])
  | .probeLoad env raiPath classCount timeout =>
      match s.probe with
      | some ⟨child, false⟩ =>
          let r := child.native.tracedLoad env raiPath 1 (py "probe") classCount timeout
          some ({ s with probe := some ⟨{ child with native := r.1.2 }, true⟩ },
            s.loadEvents r.2)
      | _ => none
  | .probeEnd => s.probe.map fun _ => ({ s with probe := none }, [])
  | .registry after =>
      some ({ s with sup := { s.sup with registry := keepState after s.sup.registry } },
        [])
  | .restart after =>
      some ({ sup := { registry := keepState after s.sup.registry
                       nextPid := s.sup.nextPid } }, [])

/-- The daemon as a machine. -/
def machine (cfg : Config) : Machine System Label Event where
  step := step cfg

/-- A fresh process on a registry. -/
def fresh (r : Registry) : System where
  sup := { registry := r }

/-! ## What a step can do to the inhibition record -/

@[simp]
theorem keepState_state (after r : Registry) : (keepState after r).state = r.state :=
  rfl

@[simp]
theorem afterFrontend_sup (s : System) (r : Frontend × List Sent) :
    (s.afterFrontend r).1.sup = s.sup :=
  rfl

/-- The record the first half of an activation leaves behind. -/
def startRecord (cfg : Config) (env : StartEnv) (compileKey : PyStr) (r : Registry) :
    Option Inhibition :=
  (startFailure cfg env compileKey r).bind fun reason =>
    env.fail.record reason compileKey r

/-- The record the second half of an activation leaves behind. -/
def finishRecord (env : FinishEnv) (p : Pending) (r : Registry) : Option Inhibition :=
  (finishFailure env p.spec p.generation p.child).bind fun reason =>
    env.fail.record reason p.compileKey r

/-- The record an inference leaves behind. -/
def inferRecord (env : InferEnv) (m : Message) (shape : List Json) (remain : Int)
    (s : Supervisor) : Option Inhibition :=
  (inferFailure env m.data shape remain s).bind fun reason =>
    env.drop.record reason s

/-- The inhibition a step records. -/
def newInhibition (cfg : Config) (s : System) : Label → Option Inhibition
  | .start env =>
      match s.frontend.phase with
      | .activating _ t => startRecord cfg env t.compileKey s.sup.registry
      | _ => none
  | .admin maintenance busy refEnv arg env =>
      match activateKey cfg maintenance busy refEnv arg s.sup.registry with
      | .error _ => none
      | .ok key => startRecord cfg env key s.sup.registry
  | .finish env => s.pending.bind fun p => finishRecord env p s.sup.registry
  | .infer env =>
      match s.frontend.phase with
      | .forwarding m shape remain => inferRecord env m shape remain s.sup
      | _ => none
  | _ => none

/-- Everything the first half of an activation can do to the daemon. -/
theorem startActivation_spec (cfg : Config) (caller : Caller) (compileKey : PyStr)
    (env : StartEnv) (s : System) :
    (spawns cfg env compileKey s.sup.registry = true ∧
      startRecord cfg env compileKey s.sup.registry = none ∧
      ∃ p : Pending, p.caller = caller ∧ p.compileKey = compileKey ∧
        s.startActivation cfg caller compileKey env =
          ({ s with
              sup := { s.sup with nextPid := s.sup.nextPid + 1 }
              pending := some p }, [.spawned s.inhibited])) ∨
    (spawns cfg env compileKey s.sup.registry = false ∧
      ∃ result, result ≠ .ok true ∧ s.startActivation cfg caller compileKey env =
        ({ s with
            sup := { s.sup with
              registry := s.sup.registry.record
                (startRecord cfg env compileKey s.sup.registry) }
            activated := if caller = .frontend then some result else s.activated },
          [])) := by
  unfold startActivation startRecord
  rcases activateStart_spec cfg env compileKey s.sup with
    ⟨hspawn, hfail, spec, h⟩ | ⟨hspawn, result, hresult, h⟩
  · exact Or.inl ⟨hspawn, by simp [hfail], _, rfl, rfl, by rw [h]⟩
  · exact Or.inr ⟨hspawn, result, hresult, by rw [h]⟩

/-- Everything a step can do to the inhibition record: record a new one, or clear
one that is not safety-class. -/
theorem step_inhibition {cfg : Config} {s s' : System} {l : Label} {es : List Event}
    (h : step cfg s l = some (s', es)) :
    s'.sup.registry.state.inhibition =
        (newInhibition cfg s l).or s.sup.registry.state.inhibition ∨
      ((∃ refEnv fault now after arg, l = .recover refEnv fault now after arg) ∧
        s'.sup.registry.state.inhibition = none ∧
        safetyInhibited s.sup.registry = false) := by
  cases l with
  | receive limit now parts =>
      left
      simp only [step] at h
      split at h
      · obtain ⟨rfl, -⟩ := Prod.mk.inj (Option.some.inj h)
        rfl
      · contradiction
  | take env after =>
      left
      simp only [step] at h
      split at h
      · contradiction
      · obtain ⟨rfl, -⟩ := Prod.mk.inj (Option.some.inj h)
        rfl
  | usable files =>
      left
      obtain ⟨r, -, hr⟩ := Option.map_eq_some_iff.mp h
      obtain ⟨rfl, -⟩ := Prod.mk.inj hr
      rfl
  | start env =>
      left
      simp only [step] at h
      split at h
      · rename_i m t hphase hpending hactivated
        simp only [newInhibition, hphase]
        rcases s.startActivation_spec cfg .frontend t.compileKey env with
          ⟨-, hrecord, p, -, -, hs⟩ | ⟨-, result, -, hs⟩
        · rw [hs] at h
          obtain ⟨rfl, -⟩ := Prod.mk.inj (Option.some.inj h)
          simp [hrecord]
        · rw [hs] at h
          obtain ⟨rfl, -⟩ := Prod.mk.inj (Option.some.inj h)
          exact Registry.record_inhibition _ _
      · contradiction
  | admin maintenance busy refEnv arg env =>
      left
      simp only [step] at h
      split at h
      · contradiction
      · cases hkey : activateKey cfg maintenance busy refEnv arg s.sup.registry with
        | error e =>
            rw [hkey] at h
            dsimp only at h
            obtain ⟨rfl, -⟩ := Prod.mk.inj (Option.some.inj h)
            simp [newInhibition, hkey]
        | ok key =>
            rw [hkey] at h
            dsimp only at h
            simp only [newInhibition, hkey]
            rcases s.startActivation_spec cfg .admin key env with
              ⟨-, hrecord, p, -, -, hs⟩ | ⟨-, result, -, hs⟩
            · rw [hs] at h
              obtain ⟨rfl, -⟩ := Prod.mk.inj (Option.some.inj h)
              simp [hrecord]
            · rw [hs] at h
              obtain ⟨rfl, -⟩ := Prod.mk.inj (Option.some.inj h)
              exact Registry.record_inhibition _ _
  | finish env =>
      left
      obtain ⟨p, hp, hr⟩ := Option.map_eq_some_iff.mp h
      obtain ⟨rfl, -⟩ := Prod.mk.inj hr
      simp only [newInhibition, hp, Option.bind_some, finishRecord]
      rcases activateFinish_spec env p.compileKey p.spec p.generation p.child s.sup with
        ⟨-, hfail, -, -, -, hreg⟩ | ⟨-, -, -, -, hreg⟩
      · rw [hreg, hfail]
        rfl
      · rw [hreg]
        exact Registry.record_inhibition _ _
  | resumeActivate now emitFault =>
      left
      simp only [step] at h
      split at h
      · contradiction
      · obtain ⟨r, -, hr⟩ := Option.map_eq_some_iff.mp h
        obtain ⟨rfl, -⟩ := Prod.mk.inj hr
        rfl
  | infer env =>
      left
      simp only [step] at h
      split at h
      · rename_i m shape remain hphase hinferred hpending
        obtain ⟨rfl, -⟩ := Prod.mk.inj (Option.some.inj h)
        simp only [newInhibition, hphase, inferRecord]
        rcases workerInfer_spec env m.data shape remain s.sup with
          ⟨hfail, -, hreg, -⟩ | ⟨reason, hfail, -, -, hreg⟩
        · rw [hreg, hfail]
          rfl
        · rw [hreg, hfail]
          exact Registry.record_inhibition _ _
      · contradiction
  | resumeInfer now =>
      left
      simp only [step] at h
      split at h
      · contradiction
      · obtain ⟨r, -, hr⟩ := Option.map_eq_some_iff.mp h
        obtain ⟨rfl, -⟩ := Prod.mk.inj hr
        rfl
  | recover refEnv fault now after arg =>
      obtain ⟨rfl, -⟩ := Prod.mk.inj (Option.some.inj h)
      have hk : Requeue.KeepsState fun _ _ r => (.ok (false, []), keepState after r) :=
        fun _ _ _ => rfl
      rcases recoverRef_inhibition hk refEnv cfg.modelDir fault now arg
          s.sup.registry with hsame | ⟨hnone, inh, p, hinh, hsafe, -⟩
      · exact Or.inl hsame
      · exact Or.inr ⟨⟨refEnv, fault, now, after, arg, rfl⟩, hnone,
          by simp [safetyInhibited, hinh, hsafe]⟩
  | probeStart lease spawn =>
      left
      simp only [step] at h
      split at h
      · contradiction
      · split at h <;>
        · obtain ⟨rfl, -⟩ := Prod.mk.inj (Option.some.inj h)
          rfl
  | probeLoad env raiPath classCount timeout =>
      left
      simp only [step] at h
      split at h
      · obtain ⟨rfl, -⟩ := Prod.mk.inj (Option.some.inj h)
        rfl
      · contradiction
  | probeEnd =>
      left
      obtain ⟨r, -, hr⟩ := Option.map_eq_some_iff.mp h
      obtain ⟨rfl, -⟩ := Prod.mk.inj hr
      rfl
  | registry after =>
      left
      obtain ⟨rfl, -⟩ := Prod.mk.inj (Option.some.inj h)
      rfl
  | restart after =>
      left
      obtain ⟨rfl, -⟩ := Prod.mk.inj (Option.some.inj h)
      rfl

/-! ## What a step can do to the frontend and the worker -/

/-- The replies of a frontend step as events. -/
def replies (resident : Option PyStr) (r : Frontend × List Sent) : List Event :=
  r.2.map fun x => .replied x (boundKey r.1 x.identity) resident

/-- An event about a child and not about a client. -/
def deviceEvent : Event → Prop
  | .spawned _ => True
  | .loadSent _ => True
  | _ => False

theorem deviceEvent_loadEvents (written : Bytes) (s : System) :
    ∀ e ∈ s.loadEvents written, deviceEvent e := by
  unfold loadEvents
  split <;> simp [deviceEvent]

/-- The effect of a step on the frontend, the resident worker and the activation in
flight; the rest of the supervisor may change in any way. -/
inductive Effect (s : System) : Label → System → List Event → Prop
  | handled {l : Label} (sup : Supervisor)
      (inferred : Option (Except Raised (InferStatus × Bytes)))
      (r : Frontend × List Sent) (hsup : sup.resident = s.sup.resident)
      (h : s.frontend.Handled r) :
      Effect s l { s with sup, inferred, frontend := r.1 } (replies s.sup.resident r)
  | device {l : Label} (sup : Supervisor) (probe : Option Probe) (es : List Event)
      (hsup : sup.resident = s.sup.resident) (hes : ∀ e ∈ es, deviceEvent e) :
      Effect s l { s with sup, probe } es
  | adminStarted {l : Label} (sup : Supervisor) (p : Pending) (es : List Event)
      (hsup : sup.resident = s.sup.resident) (hcaller : p.caller = .admin)
      (hes : ∀ e ∈ es, deviceEvent e) :
      Effect s l { s with sup, pending := some p } es
  | started (env : StartEnv) (sup : Supervisor) (p : Pending) (m : Message)
      (t : Transfer) (es : List Event) (hsup : sup.resident = s.sup.resident)
      (hphase : s.frontend.phase = .activating m t) (hactivated : s.activated = none)
      (hkey : p.compileKey = t.compileKey) (hes : ∀ e ∈ es, deviceEvent e) :
      Effect s (.start env) { s with sup, pending := some p } es
  | returned (env : StartEnv) (sup : Supervisor) (m : Message) (t : Transfer)
      (result : Except Raised Bool) (hsup : sup.resident = s.sup.resident)
      (hphase : s.frontend.phase = .activating m t) (hpending : s.pending = none)
      (hactivated : s.activated = none) (hresult : result ≠ .ok true) :
      Effect s (.start env) { s with sup, activated := some result } []
  | swapped (env : FinishEnv) (p : Pending) (sup : Supervisor)
      (result : Except Raised Bool) (es : List Event) (hpending : s.pending = some p)
      (hswap : swaps env p.spec p.generation p.child = true)
      (hsup : sup.resident = some p.compileKey)
      (hresult : result = .ok true ↔ settles env p.compileKey s.sup.registry = true)
      (hes : ∀ e ∈ es, deviceEvent e) :
      Effect s (.finish env)
        { s with
          sup
          pending := none
          activated := if p.caller = .frontend then some result else s.activated
          replaced :=
            if p.caller = .admin then s.replaced.filter (· != p.compileKey)
            else s.replaced }
        (es ++ [.switched p.caller p.compileKey (s.replaced.contains p.compileKey)])
  | failed (env : FinishEnv) (p : Pending) (sup : Supervisor)
      (result : Except Raised Bool) (es : List Event) (hpending : s.pending = some p)
      (hsup : sup.resident = s.sup.resident) (hresult : result ≠ .ok true)
      (hes : ∀ e ∈ es, deviceEvent e) :
      Effect s (.finish env)
        { s with
          sup
          pending := none
          activated := if p.caller = .frontend then some result else s.activated } es
  | resumed (now : Int) (emitFault : Option PyExc) (outcome : Except Raised Bool)
      (r : Frontend × List Sent) (houtcome : s.activated = some outcome)
      (h : s.frontend.activateDone now emitFault outcome = some r) :
      Effect s (.resumeActivate now emitFault)
        { s with activated := none, replaced := s.replacedBy, frontend := r.1 }
        (replies s.sup.resident r)
  | served (env : InferEnv) (m : Message) (shape : List Json) (remain : Int)
      (sup : Supervisor) (result : Except Raised (InferStatus × Bytes))
      (hphase : s.frontend.phase = .forwarding m shape remain)
      (hsup : sup.resident = s.sup.resident) (hloaded : s.sup.resident ≠ none) :
      Effect s (.infer env) { s with sup, inferred := some result }
        [.served (boundKey s.frontend m.identity) s.sup.resident]
  | unserved (env : InferEnv) (sup : Supervisor)
      (result : Except Raised (InferStatus × Bytes))
      (hsup : sup.resident = s.sup.resident) :
      Effect s (.infer env) { s with sup, inferred := some result } []
  | dropped (env : InferEnv) (m : Message) (shape : List Json) (remain : Int)
      (sup : Supervisor) (result : Except Raised (InferStatus × Bytes))
      (hphase : s.frontend.phase = .forwarding m shape remain)
      (hfail : inferFailure env m.data shape remain s.sup ≠ none)
      (hsup : sup.resident = none) :
      Effect s (.infer env) { s with sup, inferred := some result } []
  | restarted (after : Registry) (sup : Supervisor) (hsup : sup.resident = none) :
      Effect s (.restart after) { sup } []

/-- **Everything a step can do** to the frontend, the resident worker and the
activation in flight. -/
theorem step_effect {cfg : Config} {s s' : System} {l : Label} {es : List Event}
    (h : step cfg s l = some (s', es)) : Effect s l s' es := by
  cases l with
  | receive limit now parts =>
      simp only [step] at h
      split at h
      · obtain ⟨rfl, rfl⟩ := Prod.mk.inj (Option.some.inj h)
        exact .handled s.sup s.inferred _ rfl (Frontend.handled_receive limit now parts _)
      · contradiction
  | take env after =>
      simp only [step] at h
      split at h
      · contradiction
      · rename_i r htake
        obtain ⟨rfl, rfl⟩ := Prod.mk.inj (Option.some.inj h)
        exact .handled { s.sup with registry := keepState after s.sup.registry }
          s.inferred _ rfl (Frontend.handled_take htake)
  | usable files =>
      obtain ⟨r, hr, hs⟩ := Option.map_eq_some_iff.mp h
      obtain ⟨rfl, rfl⟩ := Prod.mk.inj hs
      exact .handled s.sup s.inferred _ rfl (Frontend.handled_usableDone hr)
  | start env =>
      simp only [step] at h
      split at h
      · rename_i m t hphase hpending hactivated
        rcases s.startActivation_spec cfg .frontend t.compileKey env with
          ⟨-, -, p, -, hkey, hs⟩ | ⟨-, result, hresult, hs⟩
        · rw [hs] at h
          obtain ⟨rfl, rfl⟩ := Prod.mk.inj (Option.some.inj h)
          exact .started env _ p m t _ rfl hphase hactivated hkey (by simp [deviceEvent])
        · rw [hs] at h
          obtain ⟨rfl, rfl⟩ := Prod.mk.inj (Option.some.inj h)
          exact .returned env _ m t result rfl hphase hpending hactivated hresult
      · contradiction
  | admin maintenance busy refEnv arg env =>
      simp only [step] at h
      split at h
      · contradiction
      · cases hkey : activateKey cfg maintenance busy refEnv arg s.sup.registry with
        | error e =>
            rw [hkey] at h
            dsimp only at h
            obtain ⟨rfl, rfl⟩ := Prod.mk.inj (Option.some.inj h)
            exact .device s.sup s.probe [] rfl (by simp)
        | ok key =>
            rw [hkey] at h
            dsimp only at h
            rcases s.startActivation_spec cfg .admin key env with
              ⟨-, -, p, hcaller, -, hs⟩ | ⟨-, result, -, hs⟩
            · rw [hs] at h
              obtain ⟨rfl, rfl⟩ := Prod.mk.inj (Option.some.inj h)
              exact .adminStarted _ p _ rfl hcaller (by simp [deviceEvent])
            · rw [hs] at h
              obtain ⟨rfl, rfl⟩ := Prod.mk.inj (Option.some.inj h)
              exact .device _ s.probe [] rfl (by simp)
  | finish env =>
      obtain ⟨p, hp, hr⟩ := Option.map_eq_some_iff.mp h
      obtain ⟨rfl, rfl⟩ := Prod.mk.inj hr
      rcases activateFinish_spec env p.compileKey p.spec p.generation p.child s.sup with
        ⟨hswap, -, hresult, hsup, -, -⟩ | ⟨hswap, hresult, hworker, -, -⟩
      · simp only [hswap, Bool.and_true, decide_eq_true_eq, if_true]
        exact .swapped env p _ _ _ hp hswap hsup hresult (deviceEvent_loadEvents _ s)
      · simp only [hswap, Bool.and_false, Bool.false_eq_true, if_false, List.append_nil]
        exact .failed env p _ _ _ hp (by simp only [Supervisor.resident, hworker]) hresult
          (deviceEvent_loadEvents _ s)
  | resumeActivate now emitFault =>
      simp only [step] at h
      split at h
      · contradiction
      · rename_i outcome houtcome
        obtain ⟨r, hr, hs⟩ := Option.map_eq_some_iff.mp h
        obtain ⟨rfl, rfl⟩ := Prod.mk.inj hs
        exact .resumed now emitFault outcome r houtcome hr
  | infer env =>
      simp only [step] at h
      split at h
      · rename_i m shape remain hphase hinferred hpending
        obtain ⟨rfl, rfl⟩ := Prod.mk.inj (Option.some.inj h)
        rcases workerInfer_spec env m.data shape remain s.sup with
          ⟨-, hsup, -, -⟩ | ⟨reason, hfail, hnot, hworker, -⟩
        · split
          · rename_i out hok
            obtain ⟨child, -, hresident⟩ := workerInfer_ok hok
            exact .served env m shape remain _ _ hphase hsup (by simp [hresident])
          · exact .unserved env _ _ hsup
        · split
          · rename_i out hok
            exact absurd hok (hnot out)
          · exact .dropped env m shape remain _ _ hphase (by simp [hfail])
              (by simp [Supervisor.resident, hworker])
      · contradiction
  | resumeInfer now =>
      simp only [step] at h
      split at h
      · contradiction
      · obtain ⟨r, hr, hs⟩ := Option.map_eq_some_iff.mp h
        obtain ⟨rfl, rfl⟩ := Prod.mk.inj hs
        exact .handled s.sup none _ rfl (Frontend.handled_inferDone hr)
  | recover refEnv fault now after arg =>
      obtain ⟨rfl, rfl⟩ := Prod.mk.inj (Option.some.inj h)
      exact .device _ s.probe [] rfl (by simp)
  | probeStart lease spawn =>
      simp only [step] at h
      split at h
      · contradiction
      · split at h
        · obtain ⟨rfl, rfl⟩ := Prod.mk.inj (Option.some.inj h)
          exact .device _ _ _ rfl (by simp [deviceEvent])
        · obtain ⟨rfl, rfl⟩ := Prod.mk.inj (Option.some.inj h)
          exact .device s.sup s.probe [] rfl (by simp)
  | probeLoad env raiPath classCount timeout =>
      simp only [step] at h
      split at h
      · obtain ⟨rfl, rfl⟩ := Prod.mk.inj (Option.some.inj h)
        exact .device s.sup _ _ rfl (deviceEvent_loadEvents _ s)
      · contradiction
  | probeEnd =>
      obtain ⟨r, hr, hs⟩ := Option.map_eq_some_iff.mp h
      obtain ⟨rfl, rfl⟩ := Prod.mk.inj hs
      exact .device s.sup none [] rfl (by simp)
  | registry after =>
      obtain ⟨rfl, rfl⟩ := Prod.mk.inj (Option.some.inj h)
      exact .device _ s.probe [] rfl (by simp)
  | restart after =>
      obtain ⟨rfl, rfl⟩ := Prod.mk.inj (Option.some.inj h)
      exact .restarted after _ rfl

end System
end FrigateXdna
