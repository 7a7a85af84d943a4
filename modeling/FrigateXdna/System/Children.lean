import Mathlib.Data.List.Nodup
import FrigateXdna.System.Progress

/-!
# The children of one supervisor

Activations and inferences run one at a time under the worker lock.  Over a run of
them the ghost data below notes which children were confirmed dead, which generations
completed a LOAD, and which were published.

A child changes hands in a swap; it is lost when reading the reply to its LOAD raises
an exception that {lit}`_exchange` does not convert.  A generation is used again when
publishing it fails after its LOAD completed.

Main results:

- Theorem {lit}`owned_activateFinish`: who owns the children after the second half of
  an activation.
- Theorem {lit}`children_owned_iff`: the runs that lose no child.
- Theorem {lit}`generations_unique_iff`: the runs in which no two completed LOADs have
  the same generation; the published ones always increase.
-/

namespace FrigateXdna

open Python Library FrigateXdna.Runtime

/-! ## Whole calls -/

/-- {lit}`activate_worker`. -/
def activateWorker (cfg : Config) (start : StartEnv) (finish : FinishEnv)
    (compileKey : PyStr) (s : Supervisor) : Except Raised Bool × Supervisor :=
  match activateStart cfg start compileKey s with
  | (.returned result, s') => (result, s')
  | (.loading spec generation child, s') =>
      activateFinish finish compileKey spec generation child s'

/-- The children the supervisor can still reach: the resident one and the orphans. -/
def Supervisor.owned (s : Supervisor) : List Nat :=
  s.worker.toList.map Child.pid ++ s.orphans.map Child.pid

/-- The outcome of the LOAD of an activation. -/
def loadOutcome (finish : FinishEnv) (spec : ActivationSpec) (generation : Int)
    (child : Child) : Except WorkerRaise (Served Unit) :=
  (child.native.load finish.load spec.raiPath generation spec.servingDigest
    spec.classCount loadTimeout).1

/-- Whether an outcome is an exception other than a {lit}`WorkerError`. -/
def isBuiltin {α : Type} : Except WorkerRaise α → Bool
  | .error (.builtin _) => true
  | _ => false

/-- Whether a LOAD ends with an exception that {lit}`activate_worker` does not
catch. -/
def strayLoad (finish : FinishEnv) (spec : ActivationSpec) (generation : Int)
    (child : Child) : Bool :=
  isBuiltin (loadOutcome finish spec generation child)

/-- The children whose death the second half of an activation confirms: the new one
when it is discarded, the old one when it is replaced. -/
def confirmedDeaths (finish : FinishEnv) (spec : ActivationSpec) (generation : Int)
    (child : Child) (s : Supervisor) : List Nat :=
  match loadOutcome finish spec generation child with
  | .error (.worker _) => if finish.newDead then [child.pid] else []
  | .error (.builtin _) => []
  | .ok _ =>
      if finish.publishFault.isSome then
        if finish.newDead then [child.pid] else []
      else if finish.oldDead then s.worker.toList.map Child.pid else []

/-! ## Who owns a child -/

@[simp]
theorem owned_registry (s : Supervisor) (r : Registry) :
    Supervisor.owned { s with registry := r } = s.owned :=
  rfl

@[simp]
theorem owned_refuseActivation (env : FailEnv) (reason compileKey : PyStr)
    (s : Supervisor) : (refuseActivation env reason compileKey s).2.owned = s.owned := by
  rw [refuseActivation_snd]
  rfl

/-- A discarded child is confirmed dead or tracked. -/
theorem mem_owned_retireOrTrack (dead : Bool) (child : Child) (s : Supervisor)
    (pid : Nat) :
    pid ∈ (retireOrTrack dead child s).owned ↔
      pid ∈ s.owned ∨ (dead = false ∧ pid = child.pid) := by
  unfold retireOrTrack Supervisor.owned
  cases dead <;> simp [or_assoc]

@[simp]
theorem retireOrTrack_nextPid (dead : Bool) (child : Child) (s : Supervisor) :
    (retireOrTrack dead child s).nextPid = s.nextPid := by
  unfold retireOrTrack
  split <;> rfl

@[simp]
theorem retireOrTrack_workerGeneration (dead : Bool) (child : Child) (s : Supervisor) :
    (retireOrTrack dead child s).workerGeneration = s.workerGeneration := by
  unfold retireOrTrack
  split <;> rfl

/-- The supervisor after a completed swap, its old child retired. -/
def settledSwap (oldDead : Bool) (compileKey : PyStr) (spec : ActivationSpec)
    (generation : Int) (child : Child) (s : Supervisor) : Supervisor :=
  match s.worker with
  | none => swapWorker compileKey spec generation child s
  | some old => retireOrTrack oldDead old (swapWorker compileKey spec generation child s)

/-- A published LOAD ends in the completed swap, whatever fails after it. -/
theorem activateFinish_published {finish : FinishEnv} {compileKey : PyStr}
    {spec : ActivationSpec} {generation : Int} {child : Child} {s : Supervisor}
    {served : Served Unit} {native : NativeWorker}
    (hload : child.native.load finish.load spec.raiPath generation spec.servingDigest
      spec.classCount loadTimeout = (.ok served, native))
    (hpub : finish.publishFault = none) :
    (activateFinish finish compileKey spec generation child s).2 =
      settledSwap finish.oldDead compileKey spec generation
        { child with native, loadedKey := compileKey } s := by
  unfold activateFinish
  simp only [hload, hpub]
  cases finish.artifactFault with
  | some e => rfl
  | none =>
      dsimp only
      split <;> rfl

/-- **Who owns the children after an activation.**  The children that are confirmed
dead or owned afterwards are those owned before and the new one, unless its LOAD went
astray. -/
theorem owned_activateFinish (finish : FinishEnv) (compileKey : PyStr)
    (spec : ActivationSpec) (generation : Int) (child : Child) (s : Supervisor)
    (pid : Nat) :
    (pid ∈ confirmedDeaths finish spec generation child s ∨
        pid ∈ (activateFinish finish compileKey spec generation child s).2.owned) ↔
      pid ∈ s.owned ∨
        (pid = child.pid ∧ strayLoad finish spec generation child = false) := by
  -- a discarded child is confirmed dead or an orphan
  have hdiscarded : ∀ (c : Child) (s' : Supervisor), c.pid = child.pid →
      ((pid ∈ (if finish.newDead then [child.pid] else []) ∨
        pid ∈ (retireOrTrack finish.newDead c s').owned) ↔
        pid ∈ s'.owned ∨ pid = child.pid) := by
    intro c s' hc
    rw [mem_owned_retireOrTrack, hc]
    cases finish.newDead <;> simp [or_comm]
  unfold confirmedDeaths strayLoad loadOutcome isBuiltin
  cases hload : child.native.load finish.load spec.raiPath generation spec.servingDigest
    spec.classCount loadTimeout with | mk result native => ?_
  cases result with
  | error e =>
      unfold activateFinish
      cases e with
      | worker e => simpa [hload] using hdiscarded { child with native } s rfl
      | builtin e => simp [hload]
  | ok served =>
      cases hpub : finish.publishFault with
      | some e =>
          unfold activateFinish
          simpa [hload, hpub] using
            hdiscarded { child with native, loadedKey := compileKey } s rfl
      | none =>
          rw [activateFinish_published hload hpub, settledSwap]
          cases hw : s.worker with
          | none => simp [swapWorker, Supervisor.owned, hw, or_comm]
          | some old =>
              dsimp only
              rw [mem_owned_retireOrTrack]
              cases finish.oldDead <;>
                simp [swapWorker, Supervisor.owned, hw, or_comm, or_left_comm]

/-- The second half of an activation spawns nobody. -/
theorem activateFinish_nextPid (finish : FinishEnv) (compileKey : PyStr)
    (spec : ActivationSpec) (generation : Int) (child : Child) (s : Supervisor) :
    (activateFinish finish compileKey spec generation child s).2.nextPid =
      s.nextPid := by
  have hrefuse : ∀ (reason : PyStr) (t : Supervisor),
      (refuseActivation finish.fail reason compileKey t).2.nextPid = t.nextPid := by
    intro reason t
    rw [refuseActivation_snd]
  unfold activateFinish
  split
  · simp [hrefuse]
  · rfl
  · dsimp only
    split
    · simp [hrefuse]
    · split
      · cases s.worker <;> simp [swapWorker]
      · split <;> cases s.worker <;> simp [swapWorker]

/-- The children whose death an inference confirms: the resident one when it is
dropped. -/
def droppedDeaths (env : InferEnv) (payload : Bytes) (shape : List Json) (timeout : Int)
    (s : Supervisor) : List Nat :=
  if (inferFailure env payload shape timeout s).isSome && env.drop.dead then
    s.worker.toList.map Child.pid
  else []

/-- A dropped child is confirmed dead or tracked. -/
theorem mem_owned_dropWorker (env : DropEnv) (reason : PyStr) (s : Supervisor)
    (pid : Nat) :
    pid ∈ (dropWorker env reason s).2.owned ↔
      pid ∈ s.orphans.map Child.pid ∨
        (env.dead = false ∧ pid ∈ s.worker.toList.map Child.pid) := by
  have hforget : (dropWorker env reason s).2.owned = (forgetWorker env.dead s).owned := by
    unfold dropWorker
    split
    · rfl
    · dsimp only
      split <;> rfl
  rw [hforget, forgetWorker]
  cases hw : s.worker with
  | none => simp [Supervisor.owned]
  | some child =>
      dsimp only
      rw [mem_owned_retireOrTrack]
      simp [Supervisor.owned]

/-- Dropping the worker spawns nobody and leaves the generation alone. -/
theorem dropWorker_counters (env : DropEnv) (reason : PyStr) (s : Supervisor) :
    (dropWorker env reason s).2.nextPid = s.nextPid ∧
      (dropWorker env reason s).2.workerGeneration = s.workerGeneration := by
  have hforget : (forgetWorker env.dead s).nextPid = s.nextPid ∧
      (forgetWorker env.dead s).workerGeneration = s.workerGeneration := by
    unfold forgetWorker
    cases s.worker <;> simp
  unfold dropWorker
  split
  · exact hforget
  · dsimp only
    split <;> exact hforget

@[simp]
theorem dropWorker_nextPid (env : DropEnv) (reason : PyStr) (s : Supervisor) :
    (dropWorker env reason s).2.nextPid = s.nextPid :=
  (dropWorker_counters env reason s).1

@[simp]
theorem dropWorker_workerGeneration (env : DropEnv) (reason : PyStr) (s : Supervisor) :
    (dropWorker env reason s).2.workerGeneration = s.workerGeneration :=
  (dropWorker_counters env reason s).2

/-- The children that are confirmed dead or owned after an inference are those owned
before. -/
theorem owned_workerInfer (env : InferEnv) (payload : Bytes) (shape : List Json)
    (timeout : Int) (s : Supervisor) (pid : Nat) :
    (pid ∈ droppedDeaths env payload shape timeout s ∨
        pid ∈ (workerInfer env payload shape timeout s).2.owned) ↔ pid ∈ s.owned := by
  -- a drop confirms the resident child dead or makes it an orphan
  have hdropped : ∀ (reason : PyStr) (s' : Supervisor),
      s'.orphans = s.orphans →
      s'.worker.toList.map Child.pid = s.worker.toList.map Child.pid →
      ((pid ∈ (if env.drop.dead then s.worker.toList.map Child.pid else []) ∨
        pid ∈ (dropWorker env.drop reason s').2.owned) ↔ pid ∈ s.owned) := by
    intro reason s' horphans hworker
    rw [mem_owned_dropWorker, horphans, hworker, Supervisor.owned, List.mem_append]
    cases env.drop.dead <;> simp [or_comm]
  unfold workerInfer droppedDeaths inferFailure
  cases hw : s.worker with
  | none => simp
  | some child =>
      dsimp only
      rw [hw] at hdropped
      by_cases hl : child.native.loaded = true
      · simp only [hl, Bool.not_true, Bool.false_eq_true, if_false]
        by_cases ha : env.alive = true
        · simp only [ha, Bool.not_true, Bool.false_eq_true, if_false]
          cases child.native.infer env.exchange payload shape child.native.generation
            timeout with | mk result native => ?_
          have hkept : Supervisor.owned { s with worker := some { child with native } } =
              s.owned := by
            simp [Supervisor.owned, hw]
          cases result with
          | ok served => simp [hkept]
          | error e =>
              cases e with
              | builtin e => simp [hkept]
              | worker e =>
                  dsimp only
                  by_cases hd : dropsWorker e.code = true
                  · simp only [hd, if_true, Option.isSome_some, Bool.true_and,
                      failedAfterDrop_snd]
                    exact hdropped _ _ rfl rfl
                  · simp only [hd, if_false, Bool.false_eq_true, Option.isSome_none,
                      Bool.false_and]
                    split <;> simp [hkept]
        · simp only [ha, Bool.not_false, if_true, Option.isSome_some, Bool.true_and,
            failedAfterDrop_snd]
          exact hdropped _ _ rfl (by rw [hw])
      · simp [hl]

/-- An inference spawns nobody. -/
theorem workerInfer_nextPid (env : InferEnv) (payload : Bytes) (shape : List Json)
    (timeout : Int) (s : Supervisor) :
    (workerInfer env payload shape timeout s).2.nextPid = s.nextPid := by
  unfold workerInfer
  split
  · rfl
  · split
    · rfl
    · split
      · rw [failedAfterDrop_snd, dropWorker_nextPid]
      · split
        · dsimp only
          split
          · rw [failedAfterDrop_snd, dropWorker_nextPid]
          · split <;> rfl
        · rfl
        · rfl

/-! ## Runs of calls -/

/-- One call under the worker lock. -/
inductive WorkerCall
  | activate (start : StartEnv) (finish : FinishEnv) (compileKey : PyStr)
  | infer (env : InferEnv) (payload : Bytes) (shape : List Json) (timeout : Int)

/-- The supervisor with, as ghost data, the children confirmed dead, the generations
whose LOAD completed, those that were published, and whether the last one that
completed could not be published. -/
structure Workers where
  sup : Supervisor
  confirmed : List Nat := []
  completed : List Int := []
  published : List Int := []
  unpublished : Bool := false

/-- Note the outcome of the second half of an activation. -/
def Workers.note (w : Workers) (sup : Supervisor) (deaths : List Nat) (loaded : Bool)
    (publishFault : Option PyExc) (generation : Int) : Workers where
  sup := sup
  confirmed := w.confirmed ++ deaths
  completed := if loaded then w.completed ++ [generation] else w.completed
  published :=
    if loaded && publishFault.isNone then w.published ++ [generation] else w.published
  unpublished := if loaded then publishFault.isSome else w.unpublished

/-- One call. -/
def Workers.call (cfg : Config) (w : Workers) : WorkerCall → Workers
  | .activate start finish compileKey =>
      let sup := (activateWorker cfg start finish compileKey w.sup).2
      match activateStart cfg start compileKey w.sup with
      | (.returned _, _) => { w with sup }
      | (.loading spec generation child, s') =>
          w.note sup (confirmedDeaths finish spec generation child s')
            (loadOutcome finish spec generation child).toBool finish.publishFault generation
  | .infer env payload shape timeout =>
      { w with
        sup := (workerInfer env payload shape timeout w.sup).2
        confirmed := w.confirmed ++ droppedDeaths env payload shape timeout w.sup }

/-- Runs of calls. -/
def workerCalls (cfg : Config) : Machine Workers WorkerCall Empty where
  step w c := some (w.call cfg c, [])

/-- The supervisor before its first call. -/
def Workers.fresh (r : Registry) : Workers where
  sup := { registry := r }

/-! ## No child is lost -/

/-- Whether an exception is one that {lit}`_exchange` lets through. -/
def PyExc.isStray (e : PyExc) : Bool :=
  !(e.isOSError || e == .valueError)

/-- Whether the LOAD goes out and the bytes that answer it make {lit}`recv_message`
raise an exception that {lit}`_exchange` lets through: a header that is not an object,
is nested too deeply, or has a payload length that {lit}`int` refuses. -/
def strayReply (finish : FinishEnv) (spec : ActivationSpec) (generation : Int)
    (child : Child) : Bool :=
  let w := child.native.takeId
  let heard := (w.answered finish.load ⟨child.native.requests, generation⟩).channel.unread
  decide (0 < spec.classCount) && finish.load.alive &&
    (sendMessage (NativeWorker.loadHeader child.native.requests spec.raiPath generation
      spec.servingDigest spec.classCount) []).toBool &&
    (finish.load.send.raises w.sockTimeout).isNone &&
    match recvMessage finish.load.recursionLimit (finish.load.ending.raises loadTimeout)
        (heard.map Prod.fst) with
    | .failed e _ => PyExc.isStray e
    | .message _ _ _ => false

/-- What {lit}`_exchange` raises is converted unless it is stray. -/
theorem isBuiltin_exchangeRaise {α : Type} (text : PyStr) (e : PyExc) :
    isBuiltin (.error (exchangeRaise text e) : Except WorkerRaise α) =
      PyExc.isStray e := by
  unfold exchangeRaise PyExc.isStray workerError
  cases e <;> simp [PyExc.isOSError, isBuiltin]

/-- A failing send raises nothing stray. -/
theorem isStray_of_send {send : SendOutcome} {sockTimeout : Option Int} {e : PyExc}
    (h : send.raises sockTimeout = some e) : PyExc.isStray e = false := by
  cases send with
  | sent => contradiction
  | broken count =>
      obtain rfl := Option.some.inj h
      rfl
  | stalled count =>
      cases sockTimeout with
      | none => contradiction
      | some t =>
          simp only [SendOutcome.raises] at h
          split at h
          · obtain rfl := Option.some.inj h
            rfl
          · obtain rfl := Option.some.inj h
            rfl

/-- A LOAD ends with a stray exception exactly when its exchange does. -/
theorem isBuiltin_load (env : ExchangeEnv) (artifactPath : PyStr) (generation : Int)
    (servingDigest : PyStr) {classCount : Int} (hclasses : 0 < classCount)
    (timeout : Int) (w : NativeWorker) :
    isBuiltin (w.load env artifactPath generation servingDigest classCount timeout).1 =
      isBuiltin (NativeWorker.exchange env (NativeWorker.loadHeader w.requests artifactPath
        generation servingDigest classCount) [] ⟨w.requests, generation⟩ timeout
        w.takeId).1 := by
  rw [NativeWorker.load_of_pos env artifactPath generation servingDigest hclasses]
  generalize NativeWorker.exchange env _ [] _ timeout w.takeId = r
  obtain ⟨result, w'⟩ := r
  cases result with
  | error e => cases e <;> rfl
  | ok rep =>
      dsimp only [NativeWorker.loadEnds]
      split <;> rfl

/-- The LOAD of an activation goes astray exactly on a stray reply. -/
theorem strayLoad_eq (finish : FinishEnv) (spec : ActivationSpec) (generation : Int)
    (child : Child) :
    strayLoad finish spec generation child = strayReply finish spec generation child := by
  rw [strayLoad, loadOutcome, strayReply]
  by_cases hclasses : 0 < spec.classCount
  · rw [isBuiltin_load _ _ _ _ hclasses]
    unfold NativeWorker.exchange NativeWorker.tracedExchange NativeWorker.receive
    have hlate : ¬loadTimeout < 0 := by decide
    by_cases halive : finish.load.alive = true
    · simp only [halive, hclasses, decide_true, Bool.not_true, Bool.false_eq_true,
        if_false, Bool.true_and]
      cases hmsg : sendMessage (NativeWorker.loadHeader child.native.requests spec.raiPath
          generation spec.servingDigest spec.classCount) [] with
      | error e =>
          rw [isBuiltin_exchangeRaise, sendMessage_error hmsg]
          rfl
      | ok bytes =>
          cases hsend : finish.load.send.raises child.native.takeId.sockTimeout with
          | some e =>
              rw [isBuiltin_exchangeRaise, isStray_of_send hsend]
              simp
          | none =>
              dsimp only
              rw [if_neg hlate]
              cases recvMessage finish.load.recursionLimit
                  (finish.load.ending.raises loadTimeout) _ with
              | failed e used => simp [isBuiltin_exchangeRaise, Except.toBool]
              | message rep out used => simp [isBuiltin]
    · have hdead : finish.load.alive = false := by simpa using halive
      simp [hdead, isBuiltin, workerError]
  · rw [NativeWorker.load_of_nonpos _ _ _ _ (Int.not_lt.mp hclasses)]
    simp [hclasses, isBuiltin, workerError]

/-- The children spawned so far are exactly those that are confirmed dead, resident or
an orphan. -/
structure Workers.Owned (w : Workers) : Prop where
  numbered : 0 < w.sup.nextPid
  spawned : ∀ pid, (pid ∈ w.confirmed ∨ pid ∈ w.sup.owned) ↔
    0 < pid ∧ pid < w.sup.nextPid

theorem owned_fresh (r : Registry) : (Workers.fresh r).Owned := by
  refine ⟨Nat.one_pos, fun pid => ?_⟩
  simp only [Workers.fresh, Supervisor.owned, Option.toList_none, List.map_nil,
    List.append_nil, List.not_mem_nil, or_self, false_iff]
  omega

/-- No activation that gets to its LOAD meets a stray reply. -/
def NoStray (cfg : Config) (w : Workers) : WorkerCall → Prop
  | .activate start finish compileKey =>
      ∀ spec generation child s',
        activateStart cfg start compileKey w.sup = (.loading spec generation child, s') →
        strayReply finish spec generation child = false
  | .infer _ _ _ _ => True

/-- Whether a call meets a stray reply. -/
instance (cfg : Config) (w : Workers) : (c : WorkerCall) → Decidable (NoStray cfg w c)
  | .activate start finish compileKey =>
      match h : activateStart cfg start compileKey w.sup with
      | (.returned _, _) => isTrue fun _ _ _ _ hloading => by simp [h] at hloading
      | (.loading spec generation child, s') =>
          decidable_of_iff (strayReply finish spec generation child = false)
            ⟨fun hclean _ _ _ _ hloading => by
              rw [h] at hloading
              cases hloading
              exact hclean, fun hall => hall spec generation child s' h⟩
  | .infer _ _ _ _ => isTrue trivial

/-- The first half of an activation, as far as the children go. -/
theorem activateStart_cases (cfg : Config) (start : StartEnv) (compileKey : PyStr)
    (s : Supervisor) :
    (∃ result s', activateStart cfg start compileKey s = (.returned result, s') ∧
      s'.owned = s.owned ∧ s'.nextPid = s.nextPid ∧
      s'.workerGeneration = s.workerGeneration) ∨
    ∃ spec, activateStart cfg start compileKey s =
      (.loading spec (s.workerGeneration + 1) ⟨s.nextPid, .spawned, []⟩,
        { s with nextPid := s.nextPid + 1 }) := by
  rcases activateStart_spec cfg start compileKey s with
    ⟨-, -, spec, h⟩ | ⟨-, result, -, h⟩
  · exact Or.inr ⟨spec, h⟩
  · exact Or.inl ⟨result, _, h, rfl, rfl, rfl⟩

/-- After an activation that got to its LOAD, the children confirmed dead or owned are
those from before and, without a stray reply, the new one. -/
theorem call_loading {cfg : Config} {w : Workers} {start : StartEnv} {finish : FinishEnv}
    {compileKey : PyStr} {spec : ActivationSpec} {generation : Int}
    (hstart : activateStart cfg start compileKey w.sup =
      (.loading spec generation ⟨w.sup.nextPid, .spawned, []⟩,
        { w.sup with nextPid := w.sup.nextPid + 1 })) :
    (w.call cfg (.activate start finish compileKey)).sup.nextPid = w.sup.nextPid + 1 ∧
      ∀ pid, (pid ∈ (w.call cfg (.activate start finish compileKey)).confirmed ∨
          pid ∈ (w.call cfg (.activate start finish compileKey)).sup.owned) ↔
        (pid ∈ w.confirmed ∨ pid ∈ w.sup.owned) ∨ (pid = w.sup.nextPid ∧
          strayReply finish spec generation ⟨w.sup.nextPid, .spawned, []⟩ = false) := by
  have hnext := activateFinish_nextPid finish compileKey spec generation
    ⟨w.sup.nextPid, .spawned, []⟩ { w.sup with nextPid := w.sup.nextPid + 1 }
  refine ⟨?_, fun pid => ?_⟩
  · simp only [Workers.call, activateWorker, hstart, Workers.note]
    exact hnext
  · have hfinish := owned_activateFinish finish compileKey spec generation
      ⟨w.sup.nextPid, .spawned, []⟩ { w.sup with nextPid := w.sup.nextPid + 1 } pid
    simp only [Workers.call, activateWorker, hstart, Workers.note, List.mem_append]
    rw [or_assoc, hfinish, strayLoad_eq, or_assoc]
    exact Iff.rfl

/-- One call keeps every child owned exactly when it meets no stray reply. -/
theorem call_owned_iff {cfg : Config} {w : Workers} {c : WorkerCall} (hw : w.Owned) :
    (w.call cfg c).Owned ↔ NoStray cfg w c := by
  cases c with
  | infer env payload shape timeout =>
      have hnext := workerInfer_nextPid env payload shape timeout w.sup
      refine iff_of_true ⟨?_, fun pid => ?_⟩ trivial
      · simp only [Workers.call, hnext]
        exact hw.numbered
      · have hkept := owned_workerInfer env payload shape timeout w.sup pid
        simp only [Workers.call, hnext, List.mem_append]
        rw [or_assoc, hkept]
        exact hw.spawned pid
  | activate start finish compileKey =>
      rcases activateStart_cases cfg start compileKey w.sup with
        ⟨result, s', hstart, howned, hpid, -⟩ | ⟨spec, hstart⟩
      · refine iff_of_true ⟨?_, fun pid => ?_⟩ ?_
        · simp only [Workers.call, activateWorker, hstart, hpid]
          exact hw.numbered
        · simp only [Workers.call, activateWorker, hstart, howned, hpid]
          exact hw.spawned pid
        · intro spec generation child s'' h
          rw [hstart] at h
          cases h
      · have hG : NoStray cfg w (.activate start finish compileKey) ↔
            strayReply finish spec (w.sup.workerGeneration + 1)
              ⟨w.sup.nextPid, .spawned, []⟩ = false := by
          constructor
          · exact fun h => h _ _ _ _ hstart
          · intro h spec' generation' child' s'' hstart'
            rw [hstart] at hstart'
            cases hstart'
            exact h
        obtain ⟨hnext, hmem⟩ :
            (w.call cfg (.activate start finish compileKey)).sup.nextPid = _ ∧ ∀ pid, _ :=
          call_loading hstart
        have hpos := hw.numbered
        rw [hG]
        constructor
        · intro howned
          have hnew := (howned.spawned w.sup.nextPid).mpr (by rw [hnext]; omega)
          rcases (hmem _).mp hnew with hold | hclean
          · have := (hw.spawned _).mp hold
            omega
          · exact hclean.2
        · intro hclean
          refine ⟨by rw [hnext]; omega, fun pid => ?_⟩
          rw [hmem, hw.spawned, hnext]
          constructor
          · rintro (h | h) <;> omega
          · intro h
            by_cases hlast : pid = w.sup.nextPid
            · exact Or.inr ⟨hlast, hclean⟩
            · exact Or.inl (by omega)

/-- **No child is lost.**  A run of calls keeps every spawned child confirmed dead,
resident or an orphan exactly when none of its LOADs meets a stray reply. -/
theorem children_owned_iff {cfg : Config} {r : Registry} {cs : List WorkerCall}
    {w : Workers} {es : List Empty}
    (hrun : (workerCalls cfg).exec cs (.fresh r) = some (w, es)) :
    (workerCalls cfg).Throughout Workers.Owned cs (.fresh r) ↔
      (workerCalls cfg).Along (NoStray cfg) cs (.fresh r) := by
  refine Machine.throughout_iff_along ?_ (owned_fresh r) hrun
  intro s c s' fs hs hstep
  obtain ⟨rfl, -⟩ := Prod.mk.inj (Option.some.inj hstep)
  exact call_owned_iff hs

/-- The activation of the second model in a fresh supervisor. -/
def freshActivation : System.CleanActivation System.uploadConfig System.twoModels
    (py "b") 1 :=
  System.cleanActivation (py "b") 1 (by decide) (by decide +kernel)

/-- The fresh activation gets to its LOAD. -/
theorem freshActivation_start {s : Supervisor} {state : ServiceState}
    (hregistry : s.registry = { System.twoModels with state })
    (hgeneration : s.workerGeneration = 0) :
    activateStart System.uploadConfig freshActivation.start (py "b") s =
      (.loading freshActivation.spec 1 ⟨s.nextPid, .spawned, []⟩,
        { s with nextPid := s.nextPid + 1 }) := by
  have hinspect : inspectActivation System.uploadConfig freshActivation.start.inspect
      s.registry (py "b") = .ok freshActivation.spec := by
    rw [hregistry]
    exact freshActivation.inspect state
  simp only [activateStart, hinspect, freshActivation.spawn, hgeneration]
  rfl

/-- The LOAD of the fresh activation completes. -/
theorem freshActivation_load (finish : FinishEnv)
    (hfinish : finish.load = freshActivation.finish.load) (pid : Nat) :
    ∃ served, loadOutcome finish freshActivation.spec 1 ⟨pid, .spawned, []⟩ =
      .ok served := by
  obtain ⟨served, hload⟩ := freshActivation.load
  exact ⟨served, by rw [loadOutcome, hfinish, hload]⟩

/-- A child that answers the LOAD with the header {lit}`1`. -/
def numberReply : FinishEnv :=
  { freshActivation.finish with
    load := hearing (ReplyChannel.reply [0, 0, 0, 1, 49]) }

/-- A reply whose header is JSON but not an object loses the child: it is neither
confirmed dead, nor resident, nor an orphan. -/
theorem number_reply_loses_child :
    ∃ cs w es, (workerCalls System.uploadConfig).exec cs (.fresh System.twoModels) =
        some (w, es) ∧ w.sup.nextPid = 2 ∧ 1 ∉ w.confirmed ∧ 1 ∉ w.sup.owned := by
  have hends : (workerCalls System.uploadConfig).endsIn
      [.activate freshActivation.start numberReply (py "b")] (.fresh System.twoModels)
      (fun w => w.sup.nextPid == 2 && !w.confirmed.contains 1 &&
        !w.sup.owned.contains 1) = true := by
    decide +kernel
  obtain ⟨w, es, hrun, hp⟩ := Machine.exists_exec_of_endsIn _ hends
  simp only [Bool.and_eq_true, beq_iff_eq, Bool.not_eq_true', List.contains_eq_mem,
    decide_eq_false_iff_not] at hp
  exact ⟨_, w, es, hrun, hp.1.1, hp.1.2, hp.2⟩

/-- Four activations: the second switches away from a child whose death is not
confirmed, the LOAD of the third is sent to a child that hangs up, and the last cannot
be published. -/
def fourActivations : List WorkerCall :=
  [.activate freshActivation.start freshActivation.finish (py "b"),
    .activate freshActivation.start { freshActivation.finish with oldDead := false }
      (py "a"),
    .activate freshActivation.start
      { freshActivation.finish with
        load := { hearing [] with ending := .closed } } (py "b"),
    .activate freshActivation.start
      { freshActivation.finish with publishFault := some .databaseError } (py "b")]

/-- What the four activations leave behind. -/
theorem fourActivations_run :
    ∃ w es, (workerCalls System.uploadConfig).exec fourActivations
        (.fresh System.twoModels) = some (w, es) ∧
      (w.sup.owned = [2, 1] ∧ w.confirmed = [3, 4]) ∧
      w.completed = [1, 2, 3] ∧ w.published = [1, 2] := by
  have hends : (workerCalls System.uploadConfig).endsIn fourActivations
      (.fresh System.twoModels)
      (fun w => (w.sup.owned == [2, 1] && w.confirmed == [3, 4]) &&
        (w.completed == [1, 2, 3] && w.published == [1, 2])) = true := by
    decide +kernel
  obtain ⟨w, es, hrun, hp⟩ := Machine.exists_exec_of_endsIn _ hends
  simp only [Bool.and_eq_true, beq_iff_eq] at hp
  exact ⟨w, es, hrun, hp⟩

/-- None of their children is lost: one is resident, one is an orphan, and two are
confirmed dead. -/
theorem four_activations_owned :
    ∃ w es, (workerCalls System.uploadConfig).exec fourActivations
        (.fresh System.twoModels) = some (w, es) ∧
      w.sup.owned = [2, 1] ∧ w.confirmed = [3, 4] ∧
      (workerCalls System.uploadConfig).Throughout Workers.Owned fourActivations
        (.fresh System.twoModels) := by
  obtain ⟨w, es, hrun, ⟨howned, hconfirmed⟩, -⟩ := fourActivations_run
  have hclean : (workerCalls System.uploadConfig).Along (NoStray System.uploadConfig)
      fourActivations (.fresh System.twoModels) := by
    decide +kernel
  exact ⟨w, es, hrun, howned, hconfirmed, (children_owned_iff hrun).mpr hclean⟩

/-! ## Generations -/

/-- Whether an activation gets to its LOAD and the LOAD completes. -/
def completesLoad (cfg : Config) (w : Workers) : WorkerCall → Bool
  | .activate start finish compileKey =>
      match activateStart cfg start compileKey w.sup with
      | (.returned _, _) => false
      | (.loading spec generation child, _) =>
          (loadOutcome finish spec generation child).toBool
  | .infer _ _ _ _ => false

/-- No LOAD completes right after one whose generation could not be published. -/
def NoReuse (cfg : Config) (w : Workers) (c : WorkerCall) : Prop :=
  w.unpublished = true → completesLoad cfg w c = false

instance (cfg : Config) (w : Workers) (c : WorkerCall) : Decidable (NoReuse cfg w c) :=
  inferInstanceAs (Decidable (_ = true → _ = false))

/-- The published generations increase up to the present one; the completed ones are
pairwise different, and at most one of them, unpublished, is ahead. -/
structure Workers.Numbered (w : Workers) : Prop where
  increasing : w.published.Pairwise (· < ·)
  published : ∀ g ∈ w.published, g ≤ w.sup.workerGeneration
  completed : ∀ g ∈ w.completed, g ≤ w.sup.workerGeneration ∨
    (w.unpublished = true ∧ g = w.sup.workerGeneration + 1)
  ahead : w.unpublished = true → w.sup.workerGeneration + 1 ∈ w.completed

theorem numbered_fresh (r : Registry) : (Workers.fresh r).Numbered where
  increasing := .nil
  published := by simp [Workers.fresh]
  completed := by simp [Workers.fresh]
  ahead := by simp [Workers.fresh]

/-- The second half of an activation advances the generation exactly when its LOAD
completes and is published. -/
theorem activateFinish_generation (finish : FinishEnv) (compileKey : PyStr)
    (spec : ActivationSpec) (generation : Int) (child : Child) (s : Supervisor) :
    (activateFinish finish compileKey spec generation child s).2.workerGeneration =
      if (loadOutcome finish spec generation child).toBool &&
          finish.publishFault.isNone then generation
      else s.workerGeneration := by
  have hrefuse : ∀ (reason : PyStr) (t : Supervisor),
      (refuseActivation finish.fail reason compileKey t).2.workerGeneration =
        t.workerGeneration := by
    intro reason t
    rw [refuseActivation_snd]
  unfold loadOutcome
  cases hload : child.native.load finish.load spec.raiPath generation spec.servingDigest
    spec.classCount loadTimeout with | mk result native => ?_
  cases result with
  | error e =>
      unfold activateFinish
      cases e with
      | worker e => simp [hload, hrefuse, Except.toBool]
      | builtin e => simp [hload, Except.toBool]
  | ok served =>
      cases hpub : finish.publishFault with
      | some e =>
          unfold activateFinish
          simp [hload, hpub, hrefuse]
      | none =>
          rw [activateFinish_published hload hpub, settledSwap]
          cases s.worker <;> simp [swapWorker, Except.toBool]

/-- An inference leaves the generation alone. -/
theorem workerInfer_generation (env : InferEnv) (payload : Bytes) (shape : List Json)
    (timeout : Int) (s : Supervisor) :
    (workerInfer env payload shape timeout s).2.workerGeneration =
      s.workerGeneration := by
  unfold workerInfer
  split
  · rfl
  · split
    · rfl
    · split
      · rw [failedAfterDrop_snd, dropWorker_workerGeneration]
      · split
        · dsimp only
          split
          · rw [failedAfterDrop_snd, dropWorker_workerGeneration]
          · split <;> rfl
        · rfl
        · rfl

/-- An activation that got to its LOAD advances the numbers as follows. -/
theorem call_numbers {cfg : Config} {w : Workers} {start : StartEnv} {finish : FinishEnv}
    {compileKey : PyStr} {spec : ActivationSpec}
    (hstart : activateStart cfg start compileKey w.sup =
      (.loading spec (w.sup.workerGeneration + 1) ⟨w.sup.nextPid, .spawned, []⟩,
        { w.sup with nextPid := w.sup.nextPid + 1 })) :
    (completesLoad cfg w (.activate start finish compileKey) = false ∧
      (w.call cfg (.activate start finish compileKey)).sup.workerGeneration =
        w.sup.workerGeneration ∧
      (w.call cfg (.activate start finish compileKey)).completed = w.completed ∧
      (w.call cfg (.activate start finish compileKey)).published = w.published ∧
      (w.call cfg (.activate start finish compileKey)).unpublished = w.unpublished) ∨
    (completesLoad cfg w (.activate start finish compileKey) = true ∧
      (w.call cfg (.activate start finish compileKey)).completed =
        w.completed ++ [w.sup.workerGeneration + 1] ∧
      (((w.call cfg (.activate start finish compileKey)).unpublished = false ∧
          (w.call cfg (.activate start finish compileKey)).sup.workerGeneration =
            w.sup.workerGeneration + 1 ∧
          (w.call cfg (.activate start finish compileKey)).published =
            w.published ++ [w.sup.workerGeneration + 1]) ∨
        ((w.call cfg (.activate start finish compileKey)).unpublished = true ∧
          (w.call cfg (.activate start finish compileKey)).sup.workerGeneration =
            w.sup.workerGeneration ∧
          (w.call cfg (.activate start finish compileKey)).published =
            w.published))) := by
  have hgen := activateFinish_generation finish compileKey spec
    (w.sup.workerGeneration + 1) ⟨w.sup.nextPid, .spawned, []⟩
    { w.sup with nextPid := w.sup.nextPid + 1 }
  simp only [Workers.call, activateWorker, completesLoad, hstart, Workers.note, hgen]
  cases (loadOutcome finish spec (w.sup.workerGeneration + 1)
      ⟨w.sup.nextPid, .spawned, []⟩).toBool with
  | false => exact Or.inl ⟨rfl, rfl, rfl, rfl, rfl⟩
  | true =>
      right
      cases finish.publishFault with
      | none => exact ⟨rfl, rfl, Or.inl ⟨rfl, rfl, rfl⟩⟩
      | some e => exact ⟨rfl, rfl, Or.inr ⟨rfl, rfl, rfl⟩⟩

/-- What one call does to the numbers: nothing, or it completes the LOAD of the next
generation, which is published or not. -/
theorem call_cases (cfg : Config) (w : Workers) (c : WorkerCall) :
    (completesLoad cfg w c = false ∧
      (w.call cfg c).sup.workerGeneration = w.sup.workerGeneration ∧
      (w.call cfg c).completed = w.completed ∧ (w.call cfg c).published = w.published ∧
      (w.call cfg c).unpublished = w.unpublished) ∨
    (completesLoad cfg w c = true ∧
      (w.call cfg c).completed = w.completed ++ [w.sup.workerGeneration + 1] ∧
      (((w.call cfg c).unpublished = false ∧
          (w.call cfg c).sup.workerGeneration = w.sup.workerGeneration + 1 ∧
          (w.call cfg c).published = w.published ++ [w.sup.workerGeneration + 1]) ∨
        ((w.call cfg c).unpublished = true ∧
          (w.call cfg c).sup.workerGeneration = w.sup.workerGeneration ∧
          (w.call cfg c).published = w.published))) := by
  cases c with
  | infer env payload shape timeout =>
      exact Or.inl ⟨rfl, workerInfer_generation env payload shape timeout w.sup, rfl, rfl,
        rfl⟩
  | activate start finish compileKey =>
      rcases activateStart_cases cfg start compileKey w.sup with
        ⟨result, s', hstart, -, -, hgen⟩ | ⟨spec, hstart⟩
      · left
        simp only [Workers.call, activateWorker, completesLoad, hstart]
        exact ⟨trivial, hgen, trivial, trivial, trivial⟩
      · exact call_numbers hstart

/-- Every call keeps the numbering. -/
theorem call_numbered {cfg : Config} {w : Workers} (hw : w.Numbered) (c : WorkerCall) :
    (w.call cfg c).Numbered := by
  rcases call_cases cfg w c with ⟨-, hgen, hcompleted, hpublished, hflag⟩ |
      ⟨-, hcompleted, ⟨hflag, hgen, hpublished⟩ | ⟨hflag, hgen, hpublished⟩⟩
  · refine ⟨?_, ?_, ?_, ?_⟩
    · rw [hpublished]
      exact hw.increasing
    · rw [hpublished, hgen]
      exact hw.published
    · rw [hcompleted, hgen, hflag]
      exact hw.completed
    · rw [hcompleted, hgen, hflag]
      exact hw.ahead
  · refine ⟨?_, ?_, ?_, ?_⟩
    · rw [hpublished, List.pairwise_append]
      refine ⟨hw.increasing, List.pairwise_singleton _ _, fun g hg h hh => ?_⟩
      obtain rfl := List.mem_singleton.mp hh
      have := hw.published g hg
      omega
    · intro g hg
      rw [hpublished, List.mem_append, List.mem_singleton] at hg
      rw [hgen]
      rcases hg with hg | rfl
      · have := hw.published g hg
        omega
      · exact Int.le_refl _
    · intro g hg
      rw [hcompleted, List.mem_append, List.mem_singleton] at hg
      rw [hgen]
      left
      rcases hg with hg | rfl
      · rcases hw.completed g hg with h | ⟨-, h⟩ <;> omega
      · exact Int.le_refl _
    · intro h
      rw [hflag] at h
      contradiction
  · refine ⟨?_, ?_, ?_, ?_⟩
    · rw [hpublished]
      exact hw.increasing
    · rw [hpublished, hgen]
      exact hw.published
    · intro g hg
      rw [hcompleted, List.mem_append, List.mem_singleton] at hg
      rw [hgen, hflag]
      rcases hg with hg | rfl
      · rcases hw.completed g hg with h | ⟨-, h⟩
        · exact Or.inl h
        · exact Or.inr ⟨rfl, h⟩
      · exact Or.inr ⟨rfl, rfl⟩
    · intro _
      rw [hcompleted, hgen]
      exact List.mem_append_right _ (List.mem_singleton_self _)

/-- One call keeps the completed generations different exactly when it completes no
LOAD right after one that could not be published. -/
theorem call_distinct_iff {cfg : Config} {w : Workers} {c : WorkerCall}
    (hw : w.Numbered) (hd : w.completed.Nodup) :
    (w.call cfg c).completed.Nodup ↔ NoReuse cfg w c := by
  unfold NoReuse
  rcases call_cases cfg w c with ⟨hload, -, hcompleted, -, -⟩ | ⟨hload, hcompleted, -⟩
  · rw [hcompleted, hload]
    exact iff_of_true hd fun _ => rfl
  · rw [hcompleted, hload, List.nodup_append]
    constructor
    · rintro ⟨-, -, hdisjoint⟩ hflag
      exact absurd rfl (hdisjoint _ (hw.ahead hflag) _ (List.mem_singleton_self _))
    · intro hflag
      refine ⟨hd, List.nodup_singleton _, fun g hg h hh => ?_⟩
      obtain rfl := List.mem_singleton.mp hh
      rcases hw.completed g hg with hle | ⟨hset, -⟩
      · omega
      · exact absurd (hflag hset) (by simp)

/-- **Generations are not reused.**  The generations of the completed LOADs of a run
are pairwise different exactly when no LOAD completes right after one whose generation
could not be published; and the published ones are strictly increasing in any case. -/
theorem generations_unique_iff {cfg : Config} {r : Registry} {cs : List WorkerCall}
    {w : Workers} {es : List Empty}
    (hrun : (workerCalls cfg).exec cs (.fresh r) = some (w, es)) :
    ((workerCalls cfg).Throughout (fun w => w.completed.Nodup) cs (.fresh r) ↔
        (workerCalls cfg).Along (NoReuse cfg) cs (.fresh r)) ∧
      w.published.Pairwise (· < ·) := by
  have hkeep : ∀ (s : Workers) c s' (fs : List Empty), s.Numbered →
      (workerCalls cfg).step s c = some (s', fs) → s'.Numbered := by
    intro s c s' fs hs hstep
    obtain ⟨rfl, -⟩ := Prod.mk.inj (Option.some.inj hstep)
    exact call_numbered hs c
  constructor
  · refine Machine.throughout_iff_along_of_invariant hkeep ?_ (numbered_fresh r)
      List.nodup_nil hrun
    intro s c s' fs hs hd hstep
    obtain ⟨rfl, -⟩ := Prod.mk.inj (Option.some.inj hstep)
    exact call_distinct_iff hs hd
  · exact ((workerCalls cfg).exec_invariant hkeep (numbered_fresh r) hrun).increasing

/-- A LOAD that completes but cannot be published leaves the generation and the tables
as they were. -/
theorem call_unpublished {cfg : Config} {w : Workers} {start : StartEnv}
    {finish : FinishEnv} {compileKey : PyStr} {spec : ActivationSpec} {generation : Int}
    {served : Served Unit} {fault : PyExc}
    (hstart : activateStart cfg start compileKey w.sup =
      (.loading spec generation ⟨w.sup.nextPid, .spawned, []⟩,
        { w.sup with nextPid := w.sup.nextPid + 1 }))
    (hload : loadOutcome finish spec generation ⟨w.sup.nextPid, .spawned, []⟩ =
      .ok served)
    (hpublish : finish.publishFault = some fault) :
    (w.call cfg (.activate start finish compileKey)).completed =
        w.completed ++ [generation] ∧
      (w.call cfg (.activate start finish compileKey)).sup.workerGeneration =
        w.sup.workerGeneration ∧
      ∃ state, (w.call cfg (.activate start finish compileKey)).sup.registry =
        { w.sup.registry with state } := by
  have hgeneration := activateFinish_generation finish compileKey spec generation
    ⟨w.sup.nextPid, .spawned, []⟩ { w.sup with nextPid := w.sup.nextPid + 1 }
  have hswaps : swaps finish spec generation ⟨w.sup.nextPid, .spawned, []⟩ = false := by
    simp [swaps, hpublish]
  have hregistry : ∃ state, (activateFinish finish compileKey spec generation
      ⟨w.sup.nextPid, .spawned, []⟩
      { w.sup with nextPid := w.sup.nextPid + 1 }).2.registry =
      { w.sup.registry with state } := by
    rcases activateFinish_spec finish compileKey spec generation
        ⟨w.sup.nextPid, .spawned, []⟩ { w.sup with nextPid := w.sup.nextPid + 1 } with
      ⟨h, -⟩ | ⟨-, -, -, -, h⟩
    · rw [hswaps] at h
      contradiction
    · rw [h]
      cases (finishFailure finish spec generation ⟨w.sup.nextPid, .spawned, []⟩).bind _ with
      | none => exact ⟨w.sup.registry.state, rfl⟩
      | some inh => exact ⟨_, rfl⟩
  simp only [Workers.call, activateWorker, hstart, Workers.note, hload]
  refine ⟨rfl, ?_, hregistry⟩
  rw [hgeneration, hpublish]
  simp

/-- The fresh activation, except that publishing it fails. -/
def failedPublication : FinishEnv :=
  { freshActivation.finish with publishFault := some .databaseError }

/-- Two children in a row complete the LOAD of generation 1 when publishing the first
one fails. -/
theorem republished_generation :
    ∃ cs w es, (workerCalls System.uploadConfig).exec cs (.fresh System.twoModels) =
        some (w, es) ∧ w.completed = [1, 1] := by
  obtain ⟨served, hload⟩ := freshActivation_load failedPublication rfl 1
  obtain ⟨hcompleted, hgeneration, state, hregistry⟩ :
      ((Workers.fresh System.twoModels).call System.uploadConfig
        (.activate freshActivation.start failedPublication (py "b"))).completed = [] ++ [1] ∧
      _ = (0 : Int) ∧ ∃ state, _ = { System.twoModels with state } :=
    call_unpublished (freshActivation_start rfl rfl) hload rfl
  refine ⟨[.activate freshActivation.start failedPublication (py "b"),
    .activate freshActivation.start failedPublication (py "b")], _, [], rfl, ?_⟩
  obtain ⟨served', hload'⟩ := freshActivation_load failedPublication rfl
    ((Workers.fresh System.twoModels).call System.uploadConfig
      (.activate freshActivation.start failedPublication (py "b"))).sup.nextPid
  have hsecond := (call_unpublished (freshActivation_start hregistry hgeneration) hload'
    rfl).1
  rw [hcompleted] at hsecond
  exact hsecond

/-- The four activations use three generations, each once; two are published. -/
theorem four_generations_once :
    ∃ w es, (workerCalls System.uploadConfig).exec fourActivations
        (.fresh System.twoModels) = some (w, es) ∧
      w.completed = [1, 2, 3] ∧ w.published = [1, 2] ∧ w.published.Pairwise (· < ·) ∧
      (workerCalls System.uploadConfig).Throughout (fun w => w.completed.Nodup)
        fourActivations (.fresh System.twoModels) := by
  obtain ⟨w, es, hrun, -, hcompleted, hpublished⟩ := fourActivations_run
  have hnoreuse : (workerCalls System.uploadConfig).Along (NoReuse System.uploadConfig)
      fourActivations (.fresh System.twoModels) := by
    decide +kernel
  obtain ⟨hdistinct, hincreasing⟩ := generations_unique_iff hrun
  exact ⟨w, es, hrun, hcompleted, hpublished, hincreasing, hdistinct.mpr hnoreuse⟩

end FrigateXdna
