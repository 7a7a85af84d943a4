import FrigateXdna.Errors
import FrigateXdna.Models.Refs
import FrigateXdna.Runtime.Safety

/-!
# The supervisor's resident worker

{lit}`activate_worker` swaps the resident child, {lit}`worker_infer` forwards one
request to it, and {lit}`_drop_worker` forgets it.  All of them run under the
worker lock.  {lit}`activate_worker` is given in two halves, split at the LOAD
call, which may take seconds while other threads run.

Each child carries, as ghost data, the compile key of the artifact that its last
clean LOAD named; the key is empty before that.

Main results:

- Theorem {lit}`activateStart_spec`, {lit}`activateFinish_spec`: everything an
  activation can do to the resident worker and to the inhibition record.
- Theorem {lit}`workerInfer_spec`: the same for one inference.
-/

namespace FrigateXdna

open Python FrigateXdna.Runtime

/-! ## State -/

/-- The settings the modelled code reads. -/
structure Config where
  dataDir : PyStr
  modelDir : Option PyStr
  allowUploads : Bool

/-- A spawned child. -/
structure Child where
  pid : Nat
  native : NativeWorker
  loadedKey : PyStr

/-- The supervisor's worker fields and its registry. -/
structure Supervisor where
  registry : Registry := {}
  worker : Option Child := none
  workerGeneration : Int := 0
  workerCompileKey : Option PyStr := none
  workerServingDigest : Option PyStr := none
  orphans : List Child := []
  nextPid : Nat := 1

/-! ## Inspecting an artifact -/

/-- What the shared inspector reports for the stored source. -/
structure SourceInspection where
  profile : Option PyStr
  error : PyStr
  channels : Int

/-- What {lit}`_inspect_activation` meets: failing registry reads, the outcome of
reading the stored source, of inspecting it, the digest of the serving contract,
and whether the artifact file exists.  {lit}`text` is the text of a caught
exception. -/
structure InspectEnv where
  artifactFault : Option PyExc
  sourceFault : Option PyExc
  inspection : Except Raised SourceInspection
  servingDigest : PyStr
  artifactFile : Bool
  text : PyStr

/-- The content-bound inputs of an activation. -/
structure ActivationSpec where
  raiPath : PyStr
  servingDigest : PyStr
  classCount : Int

/-- {lit}`compile_key[:12] + "…"`. -/
def shortKey (compileKey : PyStr) : PyStr :=
  compileKey.take 12 ++ [0x2026]

/-- The path of {lit}`model.rai`. -/
def artifactPath (cfg : Config) (compileKey : PyStr) : PyStr :=
  joinPath (joinPath (joinPath cfg.dataDir (py "artifacts")) compileKey) (py "model.rai")

/-- {lit}`raise FxdnaError(…)`. -/
def raiseFxdna {α : Type} (exitCode : Nat) (errorCode message : PyStr) :
    Except Raised α :=
  .error (.fxdna ⟨exitCode, errorCode, message⟩)

/-- {lit}`_inspect_activation`. -/
def inspectActivation (cfg : Config) (env : InspectEnv) (r : Registry)
    (compileKey : PyStr) : Except Raised ActivationSpec :=
  match env.artifactFault with
  | some e => .error (.builtin e)
  | none =>
      match r.getArtifact compileKey with
      | none =>
          raiseFxdna exitNotReady (py "NOT_PREPARED")
            (py "unknown artifact " ++ shortKey compileKey)
      | some _ =>
          match env.sourceFault with
          | some e =>
              if e.isOSError then
                raiseFxdna exitNotReady (py "CACHE_CORRUPT")
                  (py "source bytes missing for " ++ shortKey compileKey ++ py ": " ++
                    env.text)
              else .error (.builtin e)
          | none =>
              match env.inspection with
              | .error (.fxdna e) => .error (.fxdna e)
              | .error _ =>
                  raiseFxdna exitValidationFailed (py "VALIDATION_FAILED")
                    (py "source re-inspection failed: " ++ env.text)
              | .ok cls =>
                  if cls.profile ≠ some (py "yolo-raw") then
                    raiseFxdna exitUnsupportedContract (py "UNSUPPORTED_CONTRACT")
                      (py "activation supports yolo-raw only: " ++ cls.error)
                  else if cls.channels - 4 ≤ 0 then
                    raiseFxdna exitUnsupportedContract (py "UNSUPPORTED_CONTRACT")
                      (py "activation needs at least one class")
                  else if !env.artifactFile then
                    raiseFxdna exitNotReady (py "NOT_PREPARED")
                      (py "artifact bytes missing for " ++ shortKey compileKey)
                  else
                    .ok ⟨artifactPath cfg compileKey, env.servingDigest,
                      cls.channels - 4⟩

/-! ## Recording a failure -/

/-- {lit}`_ref_for_artifact`. -/
def refForArtifact (fault : Option PyExc) (r : Registry) (compileKey : PyStr) :
    Except PyExc PyStr :=
  match fault with
  | some e => .error e
  | none =>
      match newestBy JobRow.updatedAt
          (r.jobs.filter fun j => j.compileKey == some compileKey) with
      | some row => .ok row.ref
      | none => .ok compileKey

/-- What recording a failure meets: a failing {lit}`_ref_for_artifact`, and the
environment of the inhibition. -/
structure FailEnv where
  refFault : Option PyExc
  inhibit : InhibitEnv

/-- {lit}`self._inhibit_quiet(reason, self._ref_for_artifact(compile_key))` and
{lit}`return False`. -/
def refuseActivation (env : FailEnv) (reason compileKey : PyStr) (s : Supervisor) :
    Except Raised Bool × Supervisor :=
  match refForArtifact env.refFault s.registry compileKey with
  | .error e => (.error (.builtin e), s)
  | .ok ref =>
      (.ok false, { s with registry := inhibitQuiet env.inhibit reason ref s.registry })

/-- {lit}`_retire_or_track`; {lit}`dead` says whether the child's death was
confirmed. -/
def retireOrTrack (dead : Bool) (child : Child) (s : Supervisor) : Supervisor :=
  if dead then s else { s with orphans := s.orphans ++ [child] }

/-- {lit}`str(code)`; {lit}`other` is the text of a container. -/
def codeText (other : PyStr) : Json → PyStr
  | .str s => s
  | .int z => intRepr z
  | .bool true => py "True"
  | .bool false => py "False"
  | .float x => x.repr
  | .null => py "None"
  | .arr _ => other
  | .obj _ => other

/-! ## Activation -/

/-- What the first half of {lit}`activate_worker` meets. -/
structure StartEnv where
  inspect : InspectEnv
  spawn : Except Raised Unit
  fail : FailEnv

/-- The end of the first half: the call is over, or a child was spawned and is
about to be sent its LOAD. -/
inductive Started
  | returned (result : Except Raised Bool)
  | loading (spec : ActivationSpec) (generation : Int) (child : Child)

/-- {lit}`activate_worker` up to the LOAD. -/
def activateStart (cfg : Config) (env : StartEnv) (compileKey : PyStr)
    (s : Supervisor) : Started × Supervisor :=
  match inspectActivation cfg env.inspect s.registry compileKey with
  | .error (.fxdna e) =>
      if e.errorCode ≠ py "NOT_PREPARED" then
        let r := refuseActivation env.fail (py "ACTIVATION_INSPECT:" ++ e.errorCode)
          compileKey s
        (.returned r.1, r.2)
      else
        (.returned (.ok false), s)
  | .error e => (.returned (.error e), s)
  | .ok spec =>
      match env.spawn with
      | .error (.worker _) =>
          let r := refuseActivation env.fail (py "WORKER_SPAWN") compileKey s
          (.returned r.1, r.2)
      | .error e => (.returned (.error e), s)
      | .ok () =>
          (.loading spec (s.workerGeneration + 1) ⟨s.nextPid, .spawned, []⟩,
            { s with nextPid := s.nextPid + 1 })

/-- What the second half of {lit}`activate_worker` meets. -/
structure FinishEnv where
  load : ExchangeEnv
  codeText : PyStr
  newDead : Bool
  oldDead : Bool
  publishFault : Option PyExc
  artifactFault : Option PyExc
  checkFault : Option PyExc
  fail : FailEnv

/-- The supervisor with the new child in place. -/
def swapWorker (compileKey : PyStr) (spec : ActivationSpec) (generation : Int)
    (child : Child) (s : Supervisor) : Supervisor :=
  { s with
    worker := some child
    workerGeneration := generation
    workerCompileKey := some compileKey
    workerServingDigest := some spec.servingDigest
    registry := s.registry.setActive ⟨compileKey, generation, spec.servingDigest⟩ }

/-- {lit}`activate_worker` from the LOAD on.  When publishing the swap fails the
old fields are restored; a failure of the recorded native check is raised with
the new child in place. -/
def activateFinish (env : FinishEnv) (compileKey : PyStr) (spec : ActivationSpec)
    (generation : Int) (child : Child) (s : Supervisor) :
    Except Raised Bool × Supervisor :=
  match child.native.load env.load spec.raiPath generation spec.servingDigest
      spec.classCount loadTimeout with
  | (.error (.worker e), native) =>
      refuseActivation env.fail (py "WORKER_LOAD:" ++ codeText env.codeText e.code)
        compileKey (retireOrTrack env.newDead { child with native } s)
  | (.error (.builtin e), _) => (.error (.builtin e), s)
  | (.ok _, native) =>
      let child := { child with native, loadedKey := compileKey }
      match env.publishFault with
      | some _ =>
          refuseActivation env.fail (py "ACTIVATION_STATE") compileKey
            (retireOrTrack env.newDead child s)
      | none =>
          let swapped := swapWorker compileKey spec generation child s
          let settled := match s.worker with
            | none => swapped
            | some old => retireOrTrack env.oldDead old swapped
          match env.artifactFault with
          | some e => (.error (.builtin e), settled)
          | none =>
              match settled.registry.getArtifact compileKey, env.checkFault with
              | some _, some e => (.error (.builtin e), settled)
              | _, _ => (.ok true, settled)

/-! ## Dropping the worker -/

/-- What {lit}`_drop_worker` meets; the console event may raise. -/
structure DropEnv where
  dead : Bool
  refFault : Option PyExc
  inhibit : InhibitEnv
  emitFault : Option PyExc

/-- The supervisor without its worker. -/
def forgetWorker (dead : Bool) (s : Supervisor) : Supervisor :=
  let s' := { s with
    worker := none
    workerCompileKey := none
    workerServingDigest := none }
  match s.worker with
  | none => s'
  | some child => retireOrTrack dead child s'

/-- The ref {lit}`_drop_worker` records. -/
def dropRef (fault : Option PyExc) (s : Supervisor) : Except PyExc PyStr :=
  match s.workerCompileKey with
  | none => .ok (py "active")
  | some key =>
      if key.isEmpty then .ok (py "active") else refForArtifact fault s.registry key

/-- {lit}`_drop_worker`. -/
def dropWorker (env : DropEnv) (reason : PyStr) (s : Supervisor) :
    Except PyExc Unit × Supervisor :=
  let forgotten := forgetWorker env.dead s
  match dropRef env.refFault s with
  | .error e => (.error e, forgotten)
  | .ok ref =>
      let inhibited := { forgotten with
        registry := inhibitQuiet env.inhibit reason ref forgotten.registry }
      match env.emitFault with
      | some e => (.error e, inhibited)
      | none => (.ok (), inhibited)

/-! ## Inference -/

/-- The status {lit}`worker_infer` returns. -/
inductive InferStatus
  | ok
  | noWorker
  | timeout
  | failed
deriving DecidableEq, Repr

/-- What {lit}`worker_infer` meets: the child's liveness at the first check, the
exchange, and a possible drop. -/
structure InferEnv where
  alive : Bool
  exchange : ExchangeEnv
  drop : DropEnv

/-- The error codes for which {lit}`worker_infer` drops the worker. -/
def dropCodes : List PyStr :=
  [py "DEVICE_FAULT", py "WORKER_DEAD", py "WORKER_IO", py "INFER_SHORT",
    py "WORKER_SPAWN"]

/-- {lit}`e.code in (…)`. -/
def dropsWorker (code : Json) : Bool :=
  dropCodes.any fun c => code.eqStr c

/-- {lit}`("failed", b"")` after {lit}`_drop_worker`, or what that raised. -/
def failedAfterDrop (r : Except PyExc Unit × Supervisor) :
    Except Raised (InferStatus × Bytes) × Supervisor :=
  match r.1 with
  | .error e => (.error (.builtin e), r.2)
  | .ok () => (.ok (.failed, []), r.2)

/-- {lit}`worker_infer`. -/
def workerInfer (env : InferEnv) (payload : Bytes) (shape : List Json) (timeout : Int)
    (s : Supervisor) : Except Raised (InferStatus × Bytes) × Supervisor :=
  match s.worker with
  | none => (.ok (.noWorker, []), s)
  | some child =>
      if !child.native.loaded then
        (.ok (.noWorker, []), s)
      else if !env.alive then
        failedAfterDrop (dropWorker env.drop (py "WORKER_DIED") s)
      else
        match child.native.infer env.exchange payload shape child.native.generation
            timeout with
        | (.error (.worker e), native) =>
            let s' := { s with worker := some { child with native } }
            if dropsWorker e.code then
              failedAfterDrop
                (dropWorker env.drop (py "WORKER_" ++ codeText [] e.code) s')
            else if e.code.eqStr (py "TIMEOUT") then
              (.ok (.timeout, []), s')
            else
              (.ok (.failed, []), s')
        | (.error (.builtin e), native) =>
            (.error (.builtin e), { s with worker := some { child with native } })
        | (.ok served, native) =>
            (.ok (.ok, served.value), { s with worker := some { child with native } })

/-! ## What an activation can do -/

/-- The compile key whose artifact the loaded resident worker serves. -/
def Supervisor.resident (s : Supervisor) : Option PyStr :=
  s.worker.bind fun child => if child.native.loaded then some child.loadedKey else none

/-- The registry after a possible inhibition. -/
def Registry.record (r : Registry) : Option Inhibition → Registry
  | none => r
  | some inh => r.setInhibition inh

@[simp]
theorem Registry.record_none (r : Registry) : r.record none = r :=
  rfl

@[simp]
theorem Registry.record_jobs (r : Registry) (inh : Option Inhibition) :
    (r.record inh).jobs = r.jobs := by
  cases inh <;> rfl

/-- Recording replaces the one slot. -/
theorem Registry.record_inhibition (r : Registry) (inh : Option Inhibition) :
    (r.record inh).state.inhibition = inh.or r.state.inhibition := by
  cases inh <;> rfl

/-- What a quiet inhibition under a ref that may not be found records. -/
def newRecord? (env : InhibitEnv) (reason : PyStr) (ref : Except PyExc PyStr) :
    Option Inhibition :=
  match ref with
  | .error _ => none
  | .ok ref => if env.fails then none else some ⟨reason, some ref, env.now, env.bootToken⟩

/-- What the failure of an activation records. -/
def FailEnv.record (env : FailEnv) (reason compileKey : PyStr) (r : Registry) :
    Option Inhibition :=
  newRecord? env.inhibit reason (refForArtifact env.refFault r compileKey)

/-- A recorded inhibition carries its reason and its ref. -/
theorem newRecord?_eq_some {env : InhibitEnv} {reason : PyStr}
    {ref : Except PyExc PyStr} {inh : Inhibition}
    (h : newRecord? env reason ref = some inh) :
    inh.reason = reason ∧ ∃ name, ref = .ok name ∧ inh.ref = some name := by
  unfold newRecord? at h
  split at h
  · contradiction
  · split at h
    · contradiction
    · obtain rfl := Option.some.inj h
      exact ⟨rfl, _, rfl, rfl⟩

/-- A quiet inhibition in terms of what it records. -/
theorem inhibitQuiet_eq (env : InhibitEnv) (reason ref : PyStr) (r : Registry) :
    inhibitQuiet env reason ref r = r.record (newRecord? env reason (.ok ref)) := by
  unfold inhibitQuiet newRecord?
  by_cases h : env.fails = true <;> simp [h, Registry.record, inhibit]

/-- The reason the first half of an activation records when it fails. -/
def startFailure (cfg : Config) (env : StartEnv) (compileKey : PyStr)
    (r : Registry) : Option PyStr :=
  match inspectActivation cfg env.inspect r compileKey with
  | .error (.fxdna e) =>
      if e.errorCode ≠ py "NOT_PREPARED" then
        some (py "ACTIVATION_INSPECT:" ++ e.errorCode)
      else none
  | .error _ => none
  | .ok _ =>
      match env.spawn with
      | .error (.worker _) => some (py "WORKER_SPAWN")
      | _ => none

/-- Whether the first half of an activation spawns a child. -/
def spawns (cfg : Config) (env : StartEnv) (compileKey : PyStr) (r : Registry) : Bool :=
  (inspectActivation cfg env.inspect r compileKey).toBool && env.spawn.toBool

/-- The reason the second half of an activation records when it fails. -/
def finishFailure (env : FinishEnv) (spec : ActivationSpec) (generation : Int)
    (child : Child) : Option PyStr :=
  match (child.native.load env.load spec.raiPath generation spec.servingDigest
      spec.classCount loadTimeout).1 with
  | .error (.worker e) => some (py "WORKER_LOAD:" ++ codeText env.codeText e.code)
  | .error (.builtin _) => none
  | .ok _ => if env.publishFault.isSome then some (py "ACTIVATION_STATE") else none

/-- Whether the second half of an activation puts the new child in place. -/
def swaps (env : FinishEnv) (spec : ActivationSpec) (generation : Int)
    (child : Child) : Bool :=
  (child.native.load env.load spec.raiPath generation spec.servingDigest
    spec.classCount loadTimeout).1.toBool && env.publishFault.isNone

/-- Whether nothing fails between the swap and the return: the artifact is looked
up, and its native check is recorded when there is one. -/
def settles (env : FinishEnv) (compileKey : PyStr) (r : Registry) : Bool :=
  env.artifactFault.isNone &&
    ((r.getArtifact compileKey).isNone || env.checkFault.isNone)

theorem refuseActivation_snd (env : FailEnv) (reason compileKey : PyStr)
    (s : Supervisor) :
    (refuseActivation env reason compileKey s).2 =
      { s with registry := s.registry.record (env.record reason compileKey s.registry) } := by
  unfold refuseActivation FailEnv.record
  split
  · rename_i e he
    simp [he, newRecord?, Registry.record]
  · rename_i ref href
    rw [href, inhibitQuiet_eq]

theorem refuseActivation_fst (env : FailEnv) (reason compileKey : PyStr)
    (s : Supervisor) : (refuseActivation env reason compileKey s).1 ≠ .ok true := by
  unfold refuseActivation
  split <;> simp

@[simp]
theorem retireOrTrack_registry (dead : Bool) (child : Child) (s : Supervisor) :
    (retireOrTrack dead child s).registry = s.registry := by
  unfold retireOrTrack
  split <;> rfl

@[simp]
theorem retireOrTrack_worker (dead : Bool) (child : Child) (s : Supervisor) :
    (retireOrTrack dead child s).worker = s.worker := by
  unfold retireOrTrack
  split <;> rfl

@[simp]
theorem retireOrTrack_workerCompileKey (dead : Bool) (child : Child) (s : Supervisor) :
    (retireOrTrack dead child s).workerCompileKey = s.workerCompileKey := by
  unfold retireOrTrack
  split <;> rfl

/-- Everything the first half of an activation can do: it spawns a child and
leaves the rest alone, or it returns after recording a reason, or it returns. -/
theorem activateStart_spec (cfg : Config) (env : StartEnv) (compileKey : PyStr)
    (s : Supervisor) :
    (spawns cfg env compileKey s.registry = true ∧
      startFailure cfg env compileKey s.registry = none ∧
      ∃ spec, activateStart cfg env compileKey s =
        (.loading spec (s.workerGeneration + 1) ⟨s.nextPid, .spawned, []⟩,
          { s with nextPid := s.nextPid + 1 })) ∨
    (spawns cfg env compileKey s.registry = false ∧
      ∃ result, result ≠ .ok true ∧ activateStart cfg env compileKey s =
        (.returned result,
          { s with
            registry := s.registry.record
              ((startFailure cfg env compileKey s.registry).bind fun reason =>
                env.fail.record reason compileKey s.registry) })) := by
  unfold activateStart spawns startFailure
  cases inspectActivation cfg env.inspect s.registry compileKey with
  | error e =>
      right
      cases e with
      | fxdna e =>
          refine ⟨rfl, ?_⟩
          by_cases he : e.errorCode = py "NOT_PREPARED"
          · exact ⟨.ok false, by simp, by simp [he]⟩
          · refine ⟨_, refuseActivation_fst env.fail
              (py "ACTIVATION_INSPECT:" ++ e.errorCode) compileKey s, ?_⟩
            simp [he, refuseActivation_snd]
      | worker e => exact ⟨rfl, .error (.worker e), by simp, rfl⟩
      | builtin e => exact ⟨rfl, .error (.builtin e), by simp, rfl⟩
  | ok spec =>
      cases env.spawn with
      | ok u => exact Or.inl ⟨rfl, rfl, spec, rfl⟩
      | error e =>
          right
          cases e with
          | worker e =>
              refine ⟨rfl, _, refuseActivation_fst env.fail (py "WORKER_SPAWN")
                compileKey s, ?_⟩
              simp [refuseActivation_snd]
          | fxdna e => exact ⟨rfl, .error (.fxdna e), by simp, rfl⟩
          | builtin e => exact ⟨rfl, .error (.builtin e), by simp, rfl⟩

/-- Everything the second half of an activation can do: the new child is in place,
loaded with the artifact of the key, or the worker fields are as before and a
reason may be recorded. -/
theorem activateFinish_spec (env : FinishEnv) (compileKey : PyStr)
    (spec : ActivationSpec) (generation : Int) (child : Child) (s : Supervisor) :
    (swaps env spec generation child = true ∧
      finishFailure env spec generation child = none ∧
      ((activateFinish env compileKey spec generation child s).1 = .ok true ↔
        settles env compileKey s.registry = true) ∧
      (activateFinish env compileKey spec generation child s).2.resident =
        some compileKey ∧
      (activateFinish env compileKey spec generation child s).2.workerCompileKey =
        some compileKey ∧
      (activateFinish env compileKey spec generation child s).2.registry =
        s.registry.setActive ⟨compileKey, generation, spec.servingDigest⟩) ∨
    (swaps env spec generation child = false ∧
      (activateFinish env compileKey spec generation child s).1 ≠ .ok true ∧
      (activateFinish env compileKey spec generation child s).2.worker = s.worker ∧
      (activateFinish env compileKey spec generation child s).2.workerCompileKey =
        s.workerCompileKey ∧
      (activateFinish env compileKey spec generation child s).2.registry =
        s.registry.record ((finishFailure env spec generation child).bind fun reason =>
          env.fail.record reason compileKey s.registry)) := by
  unfold activateFinish swaps finishFailure
  cases hload : child.native.load env.load spec.raiPath generation spec.servingDigest
    spec.classCount loadTimeout with | mk result native => ?_
  cases result with
  | error e =>
      right
      cases e with
      | worker e =>
          refine ⟨rfl, refuseActivation_fst _ _ _ _, ?_, ?_, ?_⟩ <;>
            simp [refuseActivation_snd]
      | builtin e => exact ⟨rfl, by simp, rfl, rfl, rfl⟩
  | ok served =>
      cases hpub : env.publishFault with
      | some e =>
          right
          refine ⟨by simp, refuseActivation_fst _ _ _ _, ?_, ?_, ?_⟩ <;>
            simp [refuseActivation_snd]
      | none =>
          left
          have hl : native.loaded = true := NativeWorker.load_ok_loaded hload
          refine ⟨by simp [Except.toBool], by simp, ?_⟩
          have hartifact : ∀ s' : Supervisor, s'.registry =
              s.registry.setActive ⟨compileKey, generation, spec.servingDigest⟩ →
              s'.registry.getArtifact compileKey = s.registry.getArtifact compileKey := by
            intro s' h
            rw [h]
            rfl
          have hsettled : (match s.worker with
              | none => swapWorker compileKey spec generation
                  { child with native, loadedKey := compileKey } s
              | some old => retireOrTrack env.oldDead old (swapWorker compileKey spec
                  generation { child with native, loadedKey := compileKey } s)).registry =
              s.registry.setActive ⟨compileKey, generation, spec.servingDigest⟩ := by
            cases s.worker <;> simp [swapWorker]
          unfold settles
          cases hw : s.worker <;> rw [hw] at hsettled <;>
            have hget := hartifact _ hsettled <;>
            cases env.artifactFault <;> dsimp only at hget ⊢ <;>
            (try rw [hget]) <;> (try cases s.registry.getArtifact compileKey) <;>
            (try cases env.checkFault) <;>
            simp [Supervisor.resident, swapWorker, hl]

/-! ## What an inference can do -/

/-- What dropping the worker records. -/
def DropEnv.record (env : DropEnv) (reason : PyStr) (s : Supervisor) :
    Option Inhibition :=
  newRecord? env.inhibit reason (dropRef env.refFault s)

/-- The reason for which an inference drops the worker. -/
def inferFailure (env : InferEnv) (payload : Bytes) (shape : List Json) (timeout : Int)
    (s : Supervisor) : Option PyStr :=
  match s.worker with
  | none => none
  | some child =>
      if !child.native.loaded then none
      else if !env.alive then some (py "WORKER_DIED")
      else
        match (child.native.infer env.exchange payload shape child.native.generation
            timeout).1 with
        | .error (.worker e) =>
            if dropsWorker e.code then some (py "WORKER_" ++ codeText [] e.code)
            else none
        | _ => none

@[simp]
theorem forgetWorker_registry (dead : Bool) (s : Supervisor) :
    (forgetWorker dead s).registry = s.registry := by
  unfold forgetWorker
  split <;> simp

@[simp]
theorem forgetWorker_worker (dead : Bool) (s : Supervisor) :
    (forgetWorker dead s).worker = none := by
  unfold forgetWorker
  split <;> simp

/-- The state after {lit}`_drop_worker`. -/
theorem dropWorker_snd (env : DropEnv) (reason : PyStr) (s : Supervisor) :
    (dropWorker env reason s).2.worker = none ∧
      (dropWorker env reason s).2.registry =
        s.registry.record (env.record reason s) := by
  unfold dropWorker DropEnv.record
  split
  · rename_i e he
    simp [he, newRecord?, Registry.record]
  · rename_i ref href
    rw [href]
    split <;> simp [inhibitQuiet_eq]

/-- A drop never ends in a served request. -/
theorem failedAfterDrop_fst (r : Except PyExc Unit × Supervisor) (out : Bytes) :
    (failedAfterDrop r).1 ≠ .ok (.ok, out) := by
  unfold failedAfterDrop
  split <;> simp

theorem failedAfterDrop_snd (r : Except PyExc Unit × Supervisor) :
    (failedAfterDrop r).2 = r.2 := by
  unfold failedAfterDrop
  split <;> rfl

/-- Everything one inference can do: the worker stays, still loaded with the same
artifact, or it is dropped and a reason may be recorded.  A served request was
computed by the loaded resident worker. -/
theorem workerInfer_spec (env : InferEnv) (payload : Bytes) (shape : List Json)
    (timeout : Int) (s : Supervisor) :
    (inferFailure env payload shape timeout s = none ∧
      (workerInfer env payload shape timeout s).2.resident = s.resident ∧
      (workerInfer env payload shape timeout s).2.registry = s.registry ∧
      (workerInfer env payload shape timeout s).2.workerCompileKey =
        s.workerCompileKey) ∨
    (∃ reason, inferFailure env payload shape timeout s = some reason ∧
      (∀ out, (workerInfer env payload shape timeout s).1 ≠ .ok (.ok, out)) ∧
      (workerInfer env payload shape timeout s).2.worker = none ∧
      (workerInfer env payload shape timeout s).2.registry =
        s.registry.record (env.drop.record reason s)) := by
  unfold workerInfer inferFailure
  cases hw : s.worker with
  | none => exact Or.inl ⟨rfl, rfl, rfl, rfl⟩
  | some child =>
      dsimp only
      by_cases hl : child.native.loaded = true
      · simp only [hl, Bool.not_true, Bool.false_eq_true, if_false]
        by_cases ha : env.alive = true
        · simp only [ha, Bool.not_true, Bool.false_eq_true, if_false]
          have hloaded := NativeWorker.infer_loaded env.exchange payload shape
            child.native.generation timeout child.native
          cases hx : child.native.infer env.exchange payload shape
            child.native.generation timeout with | mk result native => ?_
          rw [hx] at hloaded
          dsimp only at hloaded ⊢
          have hkept : ({ s with worker := some { child with native } } :
              Supervisor).resident = s.resident := by
            simp [Supervisor.resident, hw, hloaded]
          cases result with
          | ok served => exact Or.inl ⟨rfl, hkept, rfl, rfl⟩
          | error e =>
              cases e with
              | builtin e => exact Or.inl ⟨rfl, hkept, rfl, rfl⟩
              | worker e =>
                  by_cases hd : dropsWorker e.code = true
                  · right
                    simp only [hd, if_true]
                    refine ⟨_, rfl, fun out => failedAfterDrop_fst _ out, ?_, ?_⟩
                    · rw [failedAfterDrop_snd]
                      exact (dropWorker_snd _ _ _).1
                    · rw [failedAfterDrop_snd]
                      exact (dropWorker_snd _ _ _).2
                  · left
                    simp only [hd, if_false, Bool.false_eq_true]
                    refine ⟨trivial, ?_, ?_, ?_⟩ <;> split
                    · exact hkept
                    · exact hkept
                    all_goals rfl
        · right
          simp only [ha, Bool.not_false, if_true]
          refine ⟨_, rfl, fun out => failedAfterDrop_fst _ out, ?_, ?_⟩
          · rw [failedAfterDrop_snd]
            exact (dropWorker_snd _ _ _).1
          · rw [failedAfterDrop_snd]
            exact (dropWorker_snd _ _ _).2
      · left
        simp [hl]

/-- A served request was computed by the loaded resident worker. -/
theorem workerInfer_ok {env : InferEnv} {payload out : Bytes} {shape : List Json}
    {timeout : Int} {s : Supervisor}
    (h : (workerInfer env payload shape timeout s).1 = .ok (.ok, out)) :
    ∃ child, s.worker = some child ∧ s.resident = some child.loadedKey := by
  unfold workerInfer at h
  cases hw : s.worker with
  | none => simp [hw] at h
  | some child =>
      refine ⟨child, rfl, ?_⟩
      have hl : child.native.loaded = true := by
        by_contra hl
        have hl' : child.native.loaded = false := by simpa using hl
        simp [hw, hl'] at h
      simp [Supervisor.resident, hw, hl]

end FrigateXdna
