import FrigateXdna.System.Children
import FrigateXdna.System.Inhibition

/-!
# Who uses the device

The users of the device are the artifact probe of a compile thread, the child of an
activation in flight, the resident worker, and a loaded child whose death a swap could
not confirm.  The device lease is held by a probe and by an activation of the frontend,
each for the length of the call; an explicit activation does not take it, and the
resident worker outlives the call that loaded it.

Main results:

- Theorem {lit}`step_leased`: the lease keeps probes and activations of the frontend
  apart.
- Theorem {lit}`device_exclusive_iff`: the runs in which the probe is never there
  together with another user and no two children stay loaded.
- Theorem {lit}`probe_beside_resident`: a probe starts while a resident worker is
  loaded.
-/

namespace FrigateXdna

open Python Library FrigateXdna.Runtime FrigateXdna.Transport

/-! ## Loaded children -/

/-- How many of some children are loaded. -/
def loadedCount (children : List Child) : Nat :=
  children.countP fun c => c.native.loaded

/-- How many children of the supervisor are loaded: the resident one and those whose
death is not confirmed. -/
def Supervisor.loadedChildren (s : Supervisor) : Nat :=
  loadedCount s.worker.toList + loadedCount s.orphans

/-- How many children are loaded after the second half of an activation: a child that
completed its LOAD but was not published stays until its death is confirmed, and so
does the child that a published one replaces. -/
def loadedAfter (finish : FinishEnv) (spec : ActivationSpec) (generation : Int)
    (child : Child) (s : Supervisor) : Nat :=
  match loadOutcome finish spec generation child with
  | .error _ => s.loadedChildren
  | .ok _ =>
      if finish.publishFault.isSome then
        s.loadedChildren + if finish.newDead then 0 else 1
      else
        loadedCount s.orphans + 1 +
          if finish.oldDead then 0 else loadedCount s.worker.toList

@[simp]
theorem loadedCount_nil : loadedCount [] = 0 :=
  rfl

@[simp]
theorem loadedCount_append (cs ds : List Child) :
    loadedCount (cs ++ ds) = loadedCount cs + loadedCount ds :=
  List.countP_append

@[simp]
theorem loadedCount_singleton (c : Child) :
    loadedCount [c] = if c.native.loaded then 1 else 0 := by
  unfold loadedCount
  rw [List.countP_singleton]

/-- A child whose death is not confirmed stays among the orphans. -/
@[simp]
theorem loadedCount_orphans_retireOrTrack (dead : Bool) (child : Child)
    (s : Supervisor) :
    loadedCount (retireOrTrack dead child s).orphans =
      loadedCount s.orphans +
        if dead then 0 else if child.native.loaded then 1 else 0 := by
  unfold retireOrTrack
  cases dead <;> simp

@[simp]
theorem loadedChildren_retireOrTrack (dead : Bool) (child : Child) (s : Supervisor) :
    (retireOrTrack dead child s).loadedChildren =
      s.loadedChildren + if dead then 0 else if child.native.loaded then 1 else 0 := by
  unfold Supervisor.loadedChildren
  rw [retireOrTrack_worker, loadedCount_orphans_retireOrTrack, Nat.add_assoc]

/-- A LOAD that fails leaves the child as loaded as it was. -/
theorem load_error_loaded {env : ExchangeEnv} {artifactPath : PyStr} {generation : Int}
    {servingDigest : PyStr} {classCount timeout : Int} {w : NativeWorker}
    {e : WorkerRaise}
    (h : (w.load env artifactPath generation servingDigest classCount timeout).1 =
      .error e) :
    (w.load env artifactPath generation servingDigest classCount timeout).2.loaded =
      w.loaded := by
  by_cases hclasses : 0 < classCount
  · have hspec := (NativeWorker.exchange_spec env (NativeWorker.loadHeader w.requests
      artifactPath generation servingDigest classCount) [] ⟨w.requests, generation⟩ timeout
      w.takeId).1.loaded
    rw [NativeWorker.load_of_pos env artifactPath generation servingDigest hclasses] at h ⊢
    generalize NativeWorker.exchange env _ [] _ timeout w.takeId = r at hspec h ⊢
    obtain ⟨result, w'⟩ := r
    cases result with
    | error e' => exact hspec
    | ok rep =>
        dsimp only [NativeWorker.loadEnds] at h ⊢
        split
        · exact hspec
        · rename_i hok
          rw [if_neg hok] at h
          contradiction
  · rw [NativeWorker.load_of_nonpos env artifactPath generation servingDigest
      (Int.not_lt.mp hclasses)]

/-- The second half of an activation leaves as many children loaded as its outcomes
say. -/
theorem loadedChildren_activateFinish (finish : FinishEnv) (compileKey : PyStr)
    (spec : ActivationSpec) (generation : Int) {child : Child} (s : Supervisor)
    (hchild : child.native.loaded = false) :
    (activateFinish finish compileKey spec generation child s).2.loadedChildren =
      loadedAfter finish spec generation child s := by
  have hrefuse : ∀ (reason : PyStr) (t : Supervisor),
      (refuseActivation finish.fail reason compileKey t).2.loadedChildren =
        t.loadedChildren := by
    intro reason t
    rw [refuseActivation_snd]
    rfl
  unfold loadedAfter loadOutcome
  cases hload : child.native.load finish.load spec.raiPath generation spec.servingDigest
    spec.classCount loadTimeout with | mk result native => ?_
  cases result with
  | error e =>
      have hnative : native.loaded = false := by
        have hsame := load_error_loaded (congrArg Prod.fst hload)
        rwa [hload, hchild] at hsame
      unfold activateFinish
      cases e with
      | worker e => simp [hload, hrefuse, hnative]
      | builtin e => simp [hload]
  | ok served =>
      have hnative : native.loaded = true := NativeWorker.load_ok_loaded hload
      cases hpub : finish.publishFault with
      | some e =>
          unfold activateFinish
          simp [hload, hpub, hrefuse, hnative]
      | none =>
          rw [activateFinish_published hload hpub, settledSwap]
          cases hworker : s.worker with
          | none => simp [swapWorker, Supervisor.loadedChildren, hnative, Nat.add_comm]
          | some old =>
              simp only [Supervisor.loadedChildren, retireOrTrack_worker,
                loadedCount_orphans_retireOrTrack]
              simp only [swapWorker, Option.toList_some, loadedCount_singleton, hnative,
                if_true, Option.isSome_none, Bool.false_eq_true, if_false]
              omega

/-- Dropping the worker leaves no more children loaded. -/
theorem loadedChildren_dropWorker (env : DropEnv) (reason : PyStr) (s : Supervisor) :
    (dropWorker env reason s).2.loadedChildren ≤ s.loadedChildren := by
  have hforget : (dropWorker env reason s).2.loadedChildren =
      (forgetWorker env.dead s).loadedChildren := by
    unfold dropWorker
    split
    · rfl
    · dsimp only
      split <;> rfl
  rw [hforget, forgetWorker]
  cases hworker : s.worker with
  | none => simp [Supervisor.loadedChildren, hworker]
  | some child =>
      simp only [Supervisor.loadedChildren, retireOrTrack_worker,
        loadedCount_orphans_retireOrTrack, hworker, Option.toList_some,
        Option.toList_none, loadedCount_singleton, loadedCount_nil]
      split <;> omega

/-- An inference leaves no more children loaded. -/
theorem loadedChildren_workerInfer (env : InferEnv) (payload : Bytes)
    (shape : List Json) (timeout : Int) (s : Supervisor) :
    (workerInfer env payload shape timeout s).2.loadedChildren ≤ s.loadedChildren := by
  unfold workerInfer
  cases hworker : s.worker with
  | none => simp
  | some child =>
      dsimp only
      by_cases hloaded : child.native.loaded = true
      · simp only [hloaded, Bool.not_true, Bool.false_eq_true, if_false]
        by_cases halive : env.alive = true
        · simp only [halive, Bool.not_true, Bool.false_eq_true, if_false]
          have hkept := NativeWorker.infer_loaded env.exchange payload shape
            child.native.generation timeout child.native
          cases hx : child.native.infer env.exchange payload shape
            child.native.generation timeout with | mk result native => ?_
          have hnative : native.loaded = true := by
            rw [hx, hloaded] at hkept
            exact hkept
          have hsame : Supervisor.loadedChildren
              { s with worker := some { child with native } } = s.loadedChildren := by
            simp [Supervisor.loadedChildren, hworker, hnative, hloaded]
          cases result with
          | ok served => exact hsame.le
          | error e =>
              cases e with
              | builtin e => exact hsame.le
              | worker e =>
                  dsimp only
                  by_cases hdrop : dropsWorker e.code = true
                  · rw [if_pos hdrop, failedAfterDrop_snd, ← hsame]
                    exact loadedChildren_dropWorker _ _ _
                  · rw [if_neg hdrop]
                    split <;> exact hsame.le
        · simp only [halive, Bool.not_false, if_true, failedAfterDrop_snd]
          exact loadedChildren_dropWorker _ _ s
      · simp [hloaded]

/-! ## The lease in the frontend -/

namespace Transport

/-- Whether a handler holds the device lease in this phase. -/
def Phase.leased : Phase → Bool
  | .checking _ _ => true
  | .activating _ _ => true
  | _ => false

/-- Ends of a handler hold no lease. -/
@[simp]
theorem Frontend.leased_reply (f : Frontend) (m : Message) (r : Reply) :
    (f.reply m r).1.phase.leased = false :=
  rfl

@[simp]
theorem Frontend.leased_die (f : Frontend) (e : Raised) (sent : List Sent) :
    (f.die e sent).1.phase.leased = false :=
  rfl

@[simp]
theorem Frontend.leased_bindAndReply (f : Frontend) (m : Message) (t : Transfer)
    (now : Int) (emitFault : Option PyExc) :
    (f.bindAndReply m t now emitFault).1.phase.leased = false := by
  cases emitFault <;> rfl

/-- Without the lease there is no activation. -/
theorem Frontend.leased_tryActivate (f : Frontend) (m : Message) (t : Transfer) :
    (f.tryActivate m t false).1.phase.leased = false :=
  rfl

theorem Frontend.leased_handlePrepared {env : TakeEnv} (henv : env.lease = false)
    (f : Frontend) (m : Message) (t : Transfer) :
    (f.handlePrepared m t env).1.phase.leased = false := by
  unfold Frontend.handlePrepared
  rw [henv]
  cases f.activeArtifact with
  | none => exact f.leased_tryActivate m t
  | some active =>
      dsimp only
      split
      · exact f.leased_bindAndReply m t _ _
      · split
        · rfl
        · exact f.leased_tryActivate m t

theorem Frontend.leased_handleModelData {cfg : Config} {env : TakeEnv}
    (henv : env.lease = false) (f : Frontend) (m : Message) :
    (f.handleModelData cfg m env).1.phase.leased = false := by
  unfold Frontend.handleModelData
  split
  · rfl
  · split
    · rfl
    · rfl
    · rfl
    · split
      · rfl
      · rfl
      · split
        · exact f.leased_handlePrepared henv m _
        · rfl

theorem Frontend.leased_handleInfer (f : Frontend) (m : Message) (env : TakeEnv) :
    (f.handleInfer m env).1.phase.leased = false := by
  unfold Frontend.handleInfer
  dsimp only
  split
  · rfl
  · split
    · rfl
    · split
      · rfl
      · split <;> rfl

theorem Frontend.leased_expired (f : Frontend) (m : Message) :
    (f.expired m).1.phase.leased = false := by
  unfold Frontend.expired
  dsimp only
  split
  · rfl
  · rfl
  · split
    · rfl
    · split
      · rfl
      · split
        · rfl
        · split <;> rfl

theorem Frontend.leased_handleModelRequest (f : Frontend) (m : Message) (now : Int) :
    (f.handleModelRequest m now).1.phase.leased = false := by
  unfold Frontend.handleModelRequest
  split
  · split <;> rfl
  · rfl

/-- A handler that does not get the lease does not hold it. -/
theorem Frontend.leased_take {cfg : Config} {env : TakeEnv} (henv : env.lease = false)
    {f : Frontend} {r : Frontend × List Sent} (h : f.take cfg env = some r) :
    r.1.phase.leased = false := by
  unfold Frontend.take at h
  split at h
  · rename_i m rest hphase hqueue
    obtain rfl := Option.some.inj h
    unfold Frontend.process
    split
    · exact Frontend.leased_expired _ m
    · split
      · rfl
      · split
        · exact Frontend.leased_handleModelRequest _ m env.now
        · split
          · rfl
          · split
            · exact Frontend.leased_handleModelData henv _ m
            · split
              · rfl
              · exact Frontend.leased_handleInfer _ m env
              · rfl
  · contradiction

/-- After an inference the handler holds no lease. -/
theorem Frontend.leased_inferDone {now : Int}
    {outcome : Except Raised (InferStatus × Bytes)} {f : Frontend}
    {r : Frontend × List Sent} (h : f.inferDone now outcome = some r) :
    r.1.phase.leased = false := by
  unfold Frontend.inferDone at h
  split at h
  · dsimp only at h
    split at h <;>
    · obtain rfl := Option.some.inj h
      rfl
  · contradiction

/-- Receiving a message leaves the handler where it is. -/
theorem Frontend.receive_phase (limit : Nat) (now : Int) (parts : List Bytes)
    (f : Frontend) : (f.receive limit now parts).1.phase = f.phase := by
  unfold Frontend.receive
  split
  · rfl
  · rfl
  · dsimp only
    split
    · rfl
    · split
      · rfl
      · rfl
      · split <;> rfl

end Transport

/-! ## One user at a time -/

namespace System

theorem frontendHoldsLease_eq (s : System) :
    s.frontendHoldsLease = s.frontend.phase.leased := by
  unfold frontendHoldsLease Phase.leased
  cases s.frontend.phase <;> rfl

/-- The device has at most one user: no probe beside an activation or a loaded child,
and no two loaded children. -/
structure Exclusive (s : System) : Prop where
  probe : s.probe.isSome = true → s.pending = none ∧ s.sup.loadedChildren = 0
  loaded : s.sup.loadedChildren ≤ 1

/-- What the lease gives: no handler holds it while a probe runs.  The child of an
activation in flight is not loaded yet. -/
structure Leased (s : System) : Prop where
  apart : s.probe.isSome = true → s.frontend.phase.leased = false
  spawned : ∀ p, s.pending = some p → p.child.native.loaded = false

/-- Without a probe and without loaded children the device is exclusive. -/
theorem exclusive_of_unused {s : System} (hprobe : s.probe = none)
    (hloaded : s.sup.loadedChildren = 0) : s.Exclusive where
  probe h := by simp [hprobe] at h
  loaded := by omega

/-- Without a probe and without an activation in flight nobody needs the lease. -/
theorem leased_of_unused {s : System} (hprobe : s.probe = none)
    (hpending : s.pending = none) : s.Leased where
  apart h := by simp [hprobe] at h
  spawned p h := by simp [hpending] at h

/-- A swap leaves one loaded child: the new one is discarded for certain when it cannot
be published, and otherwise the old one is, with no other left from before. -/
def SwapsClean (env : FinishEnv) (p : Pending) (s : Supervisor) : Prop :=
  ∀ served, loadOutcome env p.spec p.generation p.child = .ok served →
    if env.publishFault.isSome then env.newDead = true ∨ s.loadedChildren = 0
    else loadedCount s.orphans = 0 ∧
      (env.oldDead = true ∨ loadedCount s.worker.toList = 0)

theorem loadedAfter_le_one_iff {env : FinishEnv} {p : Pending} {s : Supervisor}
    (hs : s.loadedChildren ≤ 1) :
    loadedAfter env p.spec p.generation p.child s ≤ 1 ↔ SwapsClean env p s := by
  unfold loadedAfter SwapsClean
  cases hload : loadOutcome env p.spec p.generation p.child with
  | error e => simp [hs]
  | ok served =>
      simp only [Except.ok.injEq, forall_eq']
      by_cases hpub : env.publishFault.isSome = true
      · rw [if_pos hpub, if_pos hpub]
        cases env.newDead <;> simp [hs]
      · rw [if_neg hpub, if_neg hpub]
        cases env.oldDead <;> simp; omega

/-- The steps that leave the device with one user: no explicit activation spawns beside
a probe, a swap leaves one loaded child, and no probe starts beside an activation or a
loaded child. -/
def UsesAlone (cfg : Config) (s : System) : Label → Prop
  | .admin maintenance busy refEnv arg env =>
      ∀ key, activateKey cfg maintenance busy refEnv arg s.sup.registry = .ok key →
        spawns cfg env key s.sup.registry = true → s.probe = none
  | .finish env => ∀ p, s.pending = some p → SwapsClean env p s.sup
  | .probeStart lease spawn =>
      (lease && !s.frontendHoldsLease && spawn.toBool) = true →
        s.pending = none ∧ s.sup.loadedChildren = 0
  | _ => True

/-! ## Activations and the device -/

section Start

variable (cfg : Config) (caller : Caller) (key : PyStr) (env : StartEnv) (s : System)

@[simp]
theorem startActivation_frontend :
    (s.startActivation cfg caller key env).1.frontend = s.frontend := by
  unfold startActivation
  split <;> rfl

@[simp]
theorem startActivation_probe :
    (s.startActivation cfg caller key env).1.probe = s.probe := by
  unfold startActivation
  split <;> rfl

@[simp]
theorem startActivation_loadedChildren :
    (s.startActivation cfg caller key env).1.sup.loadedChildren =
      s.sup.loadedChildren := by
  rcases s.startActivation_spec cfg caller key env with
    ⟨-, -, p, -, -, hs⟩ | ⟨-, result, -, hs⟩
  · rw [hs]
    rfl
  · rw [hs]
    rfl

/-- An activation is in flight afterwards when its first half spawned a child. -/
theorem startActivation_pending (hs : s.pending = none) :
    (s.startActivation cfg caller key env).1.pending = none ↔
      spawns cfg env key s.sup.registry = false := by
  rcases s.startActivation_spec cfg caller key env with
    ⟨hspawn, -, p, -, -, h⟩ | ⟨hspawn, result, -, h⟩
  · rw [h, hspawn]
    simp
  · rw [h, hspawn]
    simp [hs]

/-- The child an activation spawns is not loaded. -/
theorem startActivation_spawned (hs : s.pending = none) {p : Pending}
    (hp : (s.startActivation cfg caller key env).1.pending = some p) :
    p.child.native.loaded = false := by
  unfold startActivation at hp
  rcases activateStart_spec cfg env key s.sup with ⟨-, -, spec, h⟩ | ⟨-, result, -, h⟩
  · rw [h] at hp
    obtain rfl := Option.some.inj hp
    rfl
  · rw [h] at hp
    rw [show _ = s.pending from rfl, hs] at hp
    contradiction

end Start

/-! ## Steps -/

/-- The first half of an activation takes no lease and loads nothing. -/
theorem startActivation_leased (cfg : Config) (caller : Caller) (key : PyStr)
    (env : StartEnv) {s : System} (hpending : s.pending = none) (hs : s.Leased) :
    (s.startActivation cfg caller key env).1.Leased := by
  refine ⟨fun hprobe => ?_, fun p hp => startActivation_spawned cfg caller key env s
    hpending hp⟩
  rw [startActivation_probe] at hprobe
  rw [startActivation_frontend]
  exact hs.apart hprobe

/-- **The lease keeps probes and handlers apart.** -/
theorem step_leased {cfg : Config} {s s' : System} {l : Label} {es : List Event}
    (h : step cfg s l = some (s', es)) (hs : s.Leased) : s'.Leased := by
  cases l with
  | receive limit now parts =>
      simp only [step] at h
      split at h
      · obtain ⟨rfl, -⟩ := Prod.mk.inj (Option.some.inj h)
        refine ⟨fun hprobe => ?_, hs.spawned⟩
        have hphase : (s.frontend.receive limit now parts).1.phase =
            s.frontend.phase := Frontend.receive_phase limit now parts _
        have hleased := hs.apart hprobe
        rwa [← hphase] at hleased
      · contradiction
  | take env after =>
      simp only [step] at h
      split at h
      · contradiction
      · rename_i r htake
        obtain ⟨rfl, -⟩ := Prod.mk.inj (Option.some.inj h)
        refine ⟨fun hprobe => ?_, hs.spawned⟩
        have hlease : (env.lease && s.probe.isNone) = false := by
          have hsome : s.probe.isSome = true := hprobe
          rw [Option.isNone_eq_false_iff.mpr hsome, Bool.and_false]
        exact Frontend.leased_take hlease htake
  | usable files =>
      obtain ⟨r, hr, hu⟩ := Option.map_eq_some_iff.mp h
      obtain ⟨rfl, -⟩ := Prod.mk.inj hu
      refine ⟨fun hprobe => ?_, hs.spawned⟩
      have hleased := hs.apart hprobe
      unfold Frontend.usableDone at hr
      split at hr
      · rename_i m t hphase
        rw [hphase] at hleased
        contradiction
      · contradiction
  | start env =>
      simp only [step] at h
      split at h
      · rename_i m t hphase hpending hactivated
        have hstate : (s.startActivation cfg .frontend t.compileKey env).1 = s' :=
          congrArg Prod.fst (Option.some.inj h)
        exact hstate ▸ startActivation_leased cfg _ _ env hpending hs
      · contradiction
  | admin maintenance busy refEnv arg env =>
      simp only [step] at h
      split at h
      · contradiction
      · rename_i hpending
        split at h
        · obtain ⟨rfl, -⟩ := Prod.mk.inj (Option.some.inj h)
          exact hs
        · rename_i key hkey
          have hstate : (s.startActivation cfg .admin key env).1 = s' :=
            congrArg Prod.fst (Option.some.inj h)
          exact hstate ▸ startActivation_leased cfg _ _ env hpending hs
  | finish env =>
      obtain ⟨p, hp, hr⟩ := Option.map_eq_some_iff.mp h
      obtain ⟨rfl, -⟩ := Prod.mk.inj hr
      exact ⟨hs.apart, fun q hq => by simp at hq⟩
  | resumeActivate now emitFault =>
      simp only [step] at h
      split at h
      · contradiction
      · obtain ⟨r, hr, hu⟩ := Option.map_eq_some_iff.mp h
        obtain ⟨rfl, -⟩ := Prod.mk.inj hu
        refine ⟨fun hprobe => ?_, hs.spawned⟩
        have hleased := hs.apart hprobe
        unfold Frontend.activateDone at hr
        split at hr
        · rename_i m t hphase
          rw [hphase] at hleased
          contradiction
        · contradiction
  | infer env =>
      simp only [step] at h
      split at h
      · obtain ⟨rfl, -⟩ := Prod.mk.inj (Option.some.inj h)
        exact ⟨hs.apart, hs.spawned⟩
      · contradiction
  | resumeInfer now =>
      simp only [step] at h
      split at h
      · contradiction
      · obtain ⟨r, hr, hu⟩ := Option.map_eq_some_iff.mp h
        obtain ⟨rfl, -⟩ := Prod.mk.inj hu
        exact ⟨fun _ => Frontend.leased_inferDone hr, hs.spawned⟩
  | recover refEnv fault now after arg =>
      obtain ⟨rfl, -⟩ := Prod.mk.inj (Option.some.inj h)
      exact ⟨hs.apart, hs.spawned⟩
  | probeStart lease spawn =>
      simp only [step] at h
      split at h
      · contradiction
      · split at h
        · rename_i hlease
          obtain ⟨rfl, -⟩ := Prod.mk.inj (Option.some.inj h)
          refine ⟨fun _ => ?_, hs.spawned⟩
          simp only [Bool.and_eq_true, Bool.not_eq_true', frontendHoldsLease_eq] at hlease
          exact hlease.1.2
        · obtain ⟨rfl, -⟩ := Prod.mk.inj (Option.some.inj h)
          exact hs
  | probeLoad env raiPath classCount timeout =>
      simp only [step] at h
      split at h
      · rename_i child hprobe
        obtain ⟨rfl, -⟩ := Prod.mk.inj (Option.some.inj h)
        exact ⟨fun _ => hs.apart (by rw [hprobe]; rfl), hs.spawned⟩
      · contradiction
  | probeEnd =>
      obtain ⟨r, -, hr⟩ := Option.map_eq_some_iff.mp h
      obtain ⟨rfl, -⟩ := Prod.mk.inj hr
      exact ⟨fun hprobe => by simp at hprobe, hs.spawned⟩
  | registry after =>
      obtain ⟨rfl, -⟩ := Prod.mk.inj (Option.some.inj h)
      exact ⟨hs.apart, hs.spawned⟩
  | restart after =>
      obtain ⟨rfl, -⟩ := Prod.mk.inj (Option.some.inj h)
      exact leased_of_unused rfl rfl

/-- A step that changes no user of the device keeps it exclusive. -/
theorem Exclusive.congr {s s' : System} (hs : s.Exclusive) (hprobe : s'.probe = s.probe)
    (hpending : s'.pending = s.pending)
    (hloaded : s'.sup.loadedChildren ≤ s.sup.loadedChildren) : s'.Exclusive := by
  refine ⟨fun h => ?_, hloaded.trans hs.loaded⟩
  rw [hprobe] at h
  obtain ⟨hnone, hzero⟩ := hs.probe h
  exact ⟨hpending.trans hnone, by omega⟩

/-- After the first half of an activation the device is exclusive when nothing was
spawned or no probe is running. -/
theorem startActivation_exclusive_iff (cfg : Config) (caller : Caller) (key : PyStr)
    (env : StartEnv) {s : System} (hpending : s.pending = none) (hs : s.Exclusive) :
    (s.startActivation cfg caller key env).1.Exclusive ↔
      (spawns cfg env key s.sup.registry = true → s.probe = none) := by
  constructor
  · intro h hspawn
    by_contra hsome
    have hprobe : (s.startActivation cfg caller key env).1.probe.isSome = true := by
      rw [startActivation_probe]
      exact Option.isSome_iff_ne_none.mpr hsome
    have hnone := (startActivation_pending cfg caller key env s hpending).mp
      (h.probe hprobe).1
    rw [hspawn] at hnone
    contradiction
  · intro h
    refine ⟨fun hprobe => ?_, by rw [startActivation_loadedChildren]; exact hs.loaded⟩
    rw [startActivation_probe] at hprobe
    refine ⟨(startActivation_pending cfg caller key env s hpending).mpr ?_, ?_⟩
    · by_contra hspawn
      rw [h (Bool.not_eq_false _ ▸ hspawn)] at hprobe
      contradiction
    · rw [startActivation_loadedChildren]
      exact (hs.probe hprobe).2

/-- One step keeps the device exclusive exactly when it uses it alone. -/
theorem step_exclusive_iff {cfg : Config} {s s' : System} {l : Label} {es : List Event}
    (h : step cfg s l = some (s', es)) (hleased : s.Leased) (hs : s.Exclusive) :
    s'.Exclusive ↔ UsesAlone cfg s l := by
  cases l with
  | receive limit now parts =>
      simp only [step] at h
      split at h
      · obtain ⟨rfl, -⟩ := Prod.mk.inj (Option.some.inj h)
        exact iff_of_true (hs.congr rfl rfl le_rfl) trivial
      · contradiction
  | take env after =>
      simp only [step] at h
      split at h
      · contradiction
      · obtain ⟨rfl, -⟩ := Prod.mk.inj (Option.some.inj h)
        exact iff_of_true (hs.congr rfl rfl le_rfl) trivial
  | usable files =>
      obtain ⟨r, hr, hu⟩ := Option.map_eq_some_iff.mp h
      obtain ⟨rfl, -⟩ := Prod.mk.inj hu
      exact iff_of_true (hs.congr rfl rfl le_rfl) trivial
  | start env =>
      simp only [step] at h
      split at h
      · rename_i m t hphase hpending hactivated
        have hstate : (s.startActivation cfg .frontend t.compileKey env).1 = s' :=
          congrArg Prod.fst (Option.some.inj h)
        rw [← hstate, startActivation_exclusive_iff cfg _ _ env hpending hs]
        refine iff_of_true (fun _ => ?_) trivial
        by_contra hsome
        have hfree := hleased.apart (Option.isSome_iff_ne_none.mpr hsome)
        rw [hphase] at hfree
        contradiction
      · contradiction
  | admin maintenance busy refEnv arg env =>
      simp only [step] at h
      split at h
      · contradiction
      · rename_i hpending
        cases hkey : activateKey cfg maintenance busy refEnv arg s.sup.registry with
        | error e =>
            rw [hkey] at h
            obtain ⟨rfl, -⟩ := Prod.mk.inj (Option.some.inj h)
            refine iff_of_true hs fun key hkey' => ?_
            rw [hkey] at hkey'
            contradiction
        | ok key =>
            rw [hkey] at h
            have hstate : (s.startActivation cfg .admin key env).1 = s' :=
              congrArg Prod.fst (Option.some.inj h)
            rw [← hstate, startActivation_exclusive_iff cfg _ _ env hpending hs]
            refine ⟨fun hone key' hkey' => ?_, fun hall => hall key hkey⟩
            obtain rfl := Except.ok.inj (hkey.symm.trans hkey')
            exact hone
  | finish env =>
      obtain ⟨p, hp, hr⟩ := Option.map_eq_some_iff.mp h
      have hstate : (s.finishActivation env p).1 = s' := congrArg Prod.fst hr
      have hnoprobe : s.probe = none := by
        by_contra hsome
        have hnone := (hs.probe (Option.isSome_iff_ne_none.mpr hsome)).1
        rw [hp] at hnone
        contradiction
      have hloaded : (s.finishActivation env p).1.sup.loadedChildren =
          loadedAfter env p.spec p.generation p.child s.sup :=
        loadedChildren_activateFinish env p.compileKey p.spec p.generation s.sup
          (hleased.spawned p hp)
      rw [← hstate]
      constructor
      · intro hafter q hq
        obtain rfl := Option.some.inj (hp.symm.trans hq)
        rw [← loadedAfter_le_one_iff hs.loaded, ← hloaded]
        exact hafter.loaded
      · intro hall
        refine ⟨fun hprobe => ?_, ?_⟩
        · rw [show (s.finishActivation env p).1.probe = s.probe from rfl, hnoprobe] at hprobe
          contradiction
        · rw [hloaded, loadedAfter_le_one_iff hs.loaded]
          exact hall p hp
  | resumeActivate now emitFault =>
      simp only [step] at h
      split at h
      · contradiction
      · obtain ⟨r, hr, hu⟩ := Option.map_eq_some_iff.mp h
        obtain ⟨rfl, -⟩ := Prod.mk.inj hu
        exact iff_of_true (hs.congr rfl rfl le_rfl) trivial
  | infer env =>
      simp only [step] at h
      split at h
      · obtain ⟨rfl, -⟩ := Prod.mk.inj (Option.some.inj h)
        exact iff_of_true
          (hs.congr rfl rfl (loadedChildren_workerInfer env _ _ _ s.sup)) trivial
      · contradiction
  | resumeInfer now =>
      simp only [step] at h
      split at h
      · contradiction
      · obtain ⟨r, hr, hu⟩ := Option.map_eq_some_iff.mp h
        obtain ⟨rfl, -⟩ := Prod.mk.inj hu
        exact iff_of_true (hs.congr rfl rfl le_rfl) trivial
  | recover refEnv fault now after arg =>
      obtain ⟨rfl, -⟩ := Prod.mk.inj (Option.some.inj h)
      exact iff_of_true (hs.congr rfl rfl le_rfl) trivial
  | probeStart lease spawn =>
      simp only [step] at h
      split at h
      · contradiction
      · split at h
        · rename_i hlease
          obtain ⟨rfl, -⟩ := Prod.mk.inj (Option.some.inj h)
          refine ⟨fun hafter _ => hafter.probe rfl, fun hall => ?_⟩
          exact ⟨fun _ => hall hlease, hs.loaded⟩
        · rename_i hlease
          obtain ⟨rfl, -⟩ := Prod.mk.inj (Option.some.inj h)
          exact iff_of_true hs fun hl => absurd hl hlease
  | probeLoad env raiPath classCount timeout =>
      simp only [step] at h
      split at h
      · rename_i child hprobe
        obtain ⟨rfl, -⟩ := Prod.mk.inj (Option.some.inj h)
        have hbefore := hs.probe (by rw [hprobe]; rfl)
        exact iff_of_true ⟨fun _ => hbefore, hs.loaded⟩ trivial
      · contradiction
  | probeEnd =>
      obtain ⟨r, -, hr⟩ := Option.map_eq_some_iff.mp h
      obtain ⟨rfl, -⟩ := Prod.mk.inj hr
      exact iff_of_true ⟨fun hprobe => by simp at hprobe, hs.loaded⟩ trivial
  | registry after =>
      obtain ⟨rfl, -⟩ := Prod.mk.inj (Option.some.inj h)
      exact iff_of_true (hs.congr rfl rfl le_rfl) trivial
  | restart after =>
      obtain ⟨rfl, -⟩ := Prod.mk.inj (Option.some.inj h)
      exact iff_of_true (exclusive_of_unused rfl rfl) trivial

/-! ## Runs -/

/-- **When the device is exclusive.**  In every state of a run the device has at most
one user exactly when every step of the run uses it alone. -/
theorem device_exclusive_iff {cfg : Config} {r : Registry} {as : List Label}
    {t : System} {es : List Event} (hrun : (machine cfg).exec as (fresh r) = some (t, es)) :
    (machine cfg).Throughout Exclusive as (fresh r) ↔
      (machine cfg).Along (UsesAlone cfg) as (fresh r) :=
  Machine.throughout_iff_along_of_invariant (I := Leased)
    (fun _ _ _ _ hs hstep => step_leased hstep hs)
    (fun _ _ _ _ hleased hs hstep => step_exclusive_iff hstep hleased hs)
    (leased_of_unused rfl rfl) (exclusive_of_unused rfl rfl) hrun

/-- The LOAD of a probe that is answered with a clean {lit}`STATUS`. -/
def cleanProbeLoad : Label :=
  .probeLoad (hearing (ReplyChannel.reply loadedReply)) (py "model.rai") 80 loadTimeout

/-- A probe that gets the lease in a daemon at rest loads its child, whatever is
loaded already. -/
theorem probe_run {tables : Registry} {s : System} (hs : s.Resting tables) :
    ∃ t es, (machine uploadConfig).exec [.probeStart true (.ok ()), cleanProbeLoad] s =
        some (t, es) ∧
      t.probe = some ⟨⟨s.sup.nextPid, loadedNative 1, []⟩, true⟩ ∧
      t.sup.worker = s.sup.worker := by
  obtain ⟨ended, hload, hnative⟩ : ∃ r, NativeWorker.spawned.tracedLoad
      (hearing (ReplyChannel.reply loadedReply)) (py "model.rai") 1 (py "probe") 80
      loadTimeout = r ∧ r.1.2 = loadedNative 1 := by
    obtain ⟨served, hload⟩ : ∃ served, NativeWorker.spawned.load
        (hearing (ReplyChannel.reply loadedReply)) (py "model.rai") 1 (py "probe") 80
        loadTimeout = (.ok served, loadedNative 1) :=
      spawned_load (by decide +kernel)
    exact ⟨_, rfl, congrArg Prod.snd hload⟩
  have hlease : s.frontendHoldsLease = false := by
    rw [frontendHoldsLease_eq, hs.phase]
    rfl
  have hstart : (machine uploadConfig).step s (.probeStart true (.ok ())) = some
      ({ s with
          probe := some ⟨⟨s.sup.nextPid, .spawned, []⟩, false⟩
          sup := { s.sup with nextPid := s.sup.nextPid + 1 } },
        [.spawned s.inhibited]) := by
    simp [machine, step, hs.probe, hlease, Except.toBool]
  have hsecond : (machine uploadConfig).step
      { s with
        probe := some ⟨⟨s.sup.nextPid, .spawned, []⟩, false⟩
        sup := { s.sup with nextPid := s.sup.nextPid + 1 } } cleanProbeLoad = some
      ({ s with
          probe := some ⟨⟨s.sup.nextPid, loadedNative 1, []⟩, true⟩
          sup := { s.sup with nextPid := s.sup.nextPid + 1 } },
        s.loadEvents ended.2) := by
    simp only [machine, step, cleanProbeLoad, hload, hnative]
    rfl
  have hrun : (machine uploadConfig).Run (fun _ _ => True) s _ _ _ :=
    .cons trivial hstart (.cons trivial hsecond (.nil _))
  exact ⟨_, _, hrun.exec, rfl, rfl⟩

/-- A probe gets the lease and loads its child while a resident worker is loaded. -/
theorem probe_beside_resident :
    ∃ as t es, (machine uploadConfig).exec as (fresh twoModels) = some (t, es) ∧
      ∃ probe, t.probe = some probe ∧ probe.child.native.loaded = true ∧
        t.sup.resident = some (py "b") := by
  obtain ⟨u, hrun, hrest, -, hworker, -⟩ := admin_run (resting_fresh twoModels)
    secondActivation (activateKey_second twoModels.state) (G := fun _ _ => True) trivial
    trivial
  obtain ⟨t, fs, hprobe, hloaded, hsame⟩ := probe_run hrest
  refine ⟨_, t, _, (Machine.exec_append _).mpr ⟨u, _, _, hrun.exec, hprobe, rfl⟩, _, hloaded,
    rfl, ?_⟩
  rw [Supervisor.resident, hsame, hworker, Option.bind_some,
    if_pos secondActivation.native_loaded]

/-- A probe of an idle daemon uses the device alone. -/
theorem probe_alone :
    ∃ as t es, (machine uploadConfig).exec as (fresh twoModels) = some (t, es) ∧
      t.probe.isSome = true ∧
      (machine uploadConfig).Throughout Exclusive as (fresh twoModels) := by
  obtain ⟨t, es, hrun, hprobe, -⟩ := probe_run (resting_fresh twoModels)
  refine ⟨_, t, es, hrun, by rw [hprobe]; rfl, (device_exclusive_iff hrun).mpr ?_⟩
  refine ⟨fun _ => ⟨rfl, rfl⟩, fun s' es' _ => ⟨trivial, fun _ _ _ => trivial⟩⟩

end System
end FrigateXdna
