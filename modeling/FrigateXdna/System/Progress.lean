import FrigateXdna.Runtime.Pairing
import FrigateXdna.System

/-!
# Runs without faults

What a daemon at rest does when nothing fails: a transfer of a prepared model and
an explicit activation load that model, and an inference of a bound identity is
served.  These runs show that the laws about runs are not empty, and they are the
parts from which the runs that break a law are put together.

Main results:

- Theorem {lit}`System.transfer_run`: a transfer of a prepared model binds its
  identity and loads the model.
- Theorem {lit}`System.admin_run`: an explicit activation loads its model.
- Theorem {lit}`System.infer_run`: an inference of a bound identity is served.
- Theorem {lit}`System.drop_run`: an inference that finds the child dead drops the
  worker and leaves the frontend as it was.
-/

namespace FrigateXdna
namespace System

open Python Library FrigateXdna.Runtime FrigateXdna.Transport

/-! ## A daemon at rest -/

/-- Nothing is in flight, and the registry holds these tables. -/
structure Resting (tables : Registry) (s : System) : Prop where
  phase : s.frontend.phase = .idle
  queue : s.frontend.queue = []
  serving : s.frontend.serving = true
  pending : s.pending = none
  activated : s.activated = none
  inferred : s.inferred = none
  probe : s.probe = none
  tables : ∃ state, s.sup.registry = { tables with state }

theorem resting_fresh (r : Registry) : (fresh r).Resting r :=
  ⟨rfl, rfl, rfl, rfl, rfl, rfl, rfl, r.state, rfl⟩

/-- Work that leaves the tables alone leaves the registry alone. -/
theorem Resting.keepState {tables : Registry} {s : System} (h : s.Resting tables) :
    keepState tables s.sup.registry = s.sup.registry := by
  obtain ⟨state, hstate⟩ := h.tables
  rw [hstate]
  rfl

/-! ## Activations without faults -/

/-- An activation in which nothing fails. -/
structure CleanActivation (cfg : Config) (tables : Registry) (key : PyStr)
    (generation : Int) where
  start : StartEnv
  finish : FinishEnv
  spec : ActivationSpec
  native : NativeWorker
  inspect : ∀ state, inspectActivation cfg start.inspect { tables with state } key =
    .ok spec
  spawn : start.spawn = .ok ()
  load : ∃ served, NativeWorker.spawned.load finish.load spec.raiPath generation
    spec.servingDigest spec.classCount loadTimeout = (.ok served, native)
  publish : finish.publishFault = none
  artifact : finish.artifactFault = none
  check : finish.checkFault = none
  oldDead : finish.oldDead = true

section Activation

variable {cfg : Config} {tables : Registry} {key : PyStr} {generation : Int}

/-- The activation in flight after its first half. -/
def CleanActivation.inFlight (a : CleanActivation cfg tables key generation)
    (caller : Caller) (pid : Nat) : Pending :=
  ⟨caller, key, a.spec, generation, ⟨pid, .spawned, []⟩⟩

/-- The daemon after the first half. -/
def CleanActivation.started (a : CleanActivation cfg tables key generation)
    (caller : Caller) (s : System) : System :=
  { s with
    sup := { s.sup with nextPid := s.sup.nextPid + 1 }
    pending := some (a.inFlight caller s.sup.nextPid) }

/-- The daemon after the second half. -/
def CleanActivation.finished (a : CleanActivation cfg tables key generation)
    (caller : Caller) (pid : Nat) (s : System) : System :=
  { s with
    sup := swapWorker key a.spec generation ⟨pid, a.native, key⟩ s.sup
    pending := none
    activated := if caller = .frontend then some (.ok true) else s.activated
    replaced := if caller = .admin then s.replaced.filter (· != key) else s.replaced }

theorem CleanActivation.native_loaded (a : CleanActivation cfg tables key generation) :
    a.native.loaded = true := by
  obtain ⟨served, hload⟩ := a.load
  exact NativeWorker.load_ok_loaded hload

theorem CleanActivation.startActivation {s : System}
    (hs : ∃ state, s.sup.registry = { tables with state })
    (a : CleanActivation cfg tables key (s.sup.workerGeneration + 1)) (caller : Caller) :
    s.startActivation cfg caller key a.start =
      (a.started caller s, [.spawned s.inhibited]) := by
  obtain ⟨state, hstate⟩ := hs
  have hinspect : inspectActivation cfg a.start.inspect s.sup.registry key =
      .ok a.spec := by
    rw [hstate]
    exact a.inspect state
  simp only [System.startActivation, activateStart, hinspect, a.spawn]
  rfl

theorem CleanActivation.activateFinish (a : CleanActivation cfg tables key generation)
    (pid : Nat) (sup : Supervisor) :
    activateFinish a.finish key a.spec generation ⟨pid, .spawned, []⟩ sup =
      (.ok true, swapWorker key a.spec generation ⟨pid, a.native, key⟩ sup) := by
  obtain ⟨served, hload⟩ := a.load
  unfold FrigateXdna.activateFinish
  simp only [hload, a.publish, a.artifact, a.check, a.oldDead]
  cases hworker : sup.worker <;> simp [retireOrTrack]

/-- The second half of an activation without faults sends the LOAD and loads the
model. -/
theorem CleanActivation.finishActivation
    (a : CleanActivation cfg tables key generation) (caller : Caller) (pid : Nat)
    (s : System) :
    s.finishActivation a.finish (a.inFlight caller pid) =
      (a.finished caller pid s,
        [.loadSent s.inhibited, .switched caller key (s.replaced.contains key)]) := by
  obtain ⟨served, hload⟩ := a.load
  have hswap : swaps a.finish a.spec generation ⟨pid, .spawned, []⟩ = true := by
    simp [swaps, hload, a.publish, Except.toBool]
  have hsent : s.loadEvents (NativeWorker.spawned.tracedLoad a.finish.load a.spec.raiPath
      generation a.spec.servingDigest a.spec.classCount loadTimeout).2 =
        [.loadSent s.inhibited] := by
    rw [loadEvents, if_neg]
    rw [List.isEmpty_iff]
    exact NativeWorker.load_ok_written (congrArg Prod.fst hload)
  simp only [System.finishActivation, CleanActivation.inFlight, a.activateFinish, hswap,
    hsent, Bool.and_true, if_true]
  cases caller <;> rfl

end Activation

/-! ## Explicit activation -/

/-- An explicit activation of a prepared model spawns a child. -/
theorem admin_start {cfg : Config} {tables : Registry} {key : PyStr} {s : System}
    (hs : s.Resting tables) (a : CleanActivation cfg tables key (s.sup.workerGeneration + 1))
    {refEnv : RefEnv} {arg : PyStr}
    (hkey : activateKey cfg true false refEnv arg s.sup.registry = .ok key) :
    (machine cfg).step s (.admin true false refEnv arg a.start) =
      some (a.started .admin s, [.spawned s.inhibited]) := by
  simp only [machine, step, hs.pending, hkey, a.startActivation hs.tables]

/-- **An explicit activation sends a LOAD and loads its model**, which counts as
replaced no longer. -/
theorem admin_run {cfg : Config} {tables : Registry} {key : PyStr} {s : System}
    (hs : s.Resting tables) (a : CleanActivation cfg tables key (s.sup.workerGeneration + 1))
    {refEnv : RefEnv} {arg : PyStr}
    (hkey : activateKey cfg true false refEnv arg s.sup.registry = .ok key)
    {G : System → Label → Prop} (hadmin : G s (.admin true false refEnv arg a.start))
    (hfinish : G (a.started .admin s) (.finish a.finish)) :
    ∃ t, (machine cfg).Run G s [.admin true false refEnv arg a.start, .finish a.finish] t
        [.spawned s.inhibited, .loadSent s.inhibited,
          .switched .admin key (s.replaced.contains key)] ∧
      t.Resting tables ∧ t.frontend = s.frontend ∧
      t.sup.worker = some ⟨s.sup.nextPid, a.native, key⟩ ∧
      t.sup.workerGeneration = s.sup.workerGeneration + 1 ∧
      t.replaced = s.replaced.filter (· != key) := by
  have hsecond : (machine cfg).step (a.started .admin s) (.finish a.finish) = _ :=
    congrArg some (a.finishActivation .admin s.sup.nextPid (a.started .admin s))
  have hrun := Machine.Run.cons hadmin (admin_start hs a hkey)
    (.cons hfinish hsecond (.nil _))
  obtain ⟨state, hstate⟩ := hs.tables
  refine ⟨a.finished .admin s.sup.nextPid (a.started .admin s), hrun,
    ⟨hs.phase, hs.queue, hs.serving, rfl, hs.activated, hs.inferred, hs.probe, ?_⟩, rfl,
    rfl, rfl, rfl⟩
  exact ⟨{ state with active := some ⟨key, s.sup.workerGeneration + 1,
    a.spec.servingDigest⟩ }, by
      simp only [CleanActivation.finished, CleanActivation.started, swapWorker, hstate]
      rfl⟩

/-! ## Messages without faults -/

/-- A message whose header parses. -/
structure ClientMessage (limit : Nat) where
  identity : Bytes
  raw : Bytes
  data : Bytes
  header : Json
  nonempty : raw ≠ []
  short : raw.length ≤ maxHeaderBytes
  parses : loads limit raw = .ok header

/-- The message as the serve loop queues it. -/
def ClientMessage.queued {limit : Nat} (c : ClientMessage limit) (id : Nat) (now : Int) :
    Message :=
  ⟨id, c.identity, c.header, c.data, now + modelOpDeadline⟩

/-- The frames of the message. -/
def ClientMessage.parts {limit : Nat} (c : ClientMessage limit) : List Bytes :=
  [c.identity, c.raw, c.data]

theorem ClientMessage.receive {limit : Nat} (c : ClientMessage limit) {f : Frontend}
    (hq : f.queue = []) (now : Int) :
    f.receive limit now c.parts =
      ({ f with received := f.received + 1, queue := [c.queued f.received now] }, []) := by
  have hframes : Frontend.frames [c.raw, c.data] = (c.raw, c.data) := by
    cases hraw : c.raw with
    | nil => exact absurd hraw c.nonempty
    | cons b rest => rfl
  have hparse : Frontend.parseHeader limit c.raw = .ok c.header := by
    have hne : c.raw.isEmpty = false := by simpa using c.nonempty
    simp [Frontend.parseHeader, hne, c.parses]
  simp only [Frontend.receive, ClientMessage.parts, hframes,
    if_neg (Nat.not_lt.mpr c.short), hparse, hq]
  rfl

/-- A transfer of a prepared model that is not in use. -/
structure CleanTransfer (cfg : Config) (limit : Nat) (key : PyStr) where
  message : ClientMessage limit
  env : Frontend.TakeEnv
  result : Frontend.IngestResult
  plain : ∃ v, message.header.get (py "model_request") = .ok v ∧ v.truthy = false
  transfer : ∃ v, message.header.get (py "model_data") = .ok v ∧ v.truthy = true
  accepted : checkTransfer cfg.allowUploads message.data.length = .ok ()
  inspected : ∃ profile text, env.inspection = .ok (some profile, text)
  ingested : env.ingest = .ok result
  prepared : (result.cacheHit && result.state == py "PREPARED") = true
  compileKey : result.compileKey = key
  lease : env.lease = true

/-- The content the identity gets bound to. -/
def CleanTransfer.content {cfg : Config} {limit : Nat} {key : PyStr}
    (c : CleanTransfer cfg limit key) : Transfer :=
  ⟨key, c.result.servingDigest, c.env.sha256⟩

theorem CleanTransfer.take {cfg : Config} {limit : Nat} {key : PyStr}
    (c : CleanTransfer cfg limit key) {f : Frontend} {id : Nat} {now : Int}
    (hphase : f.phase = .idle) (hq : f.queue = [c.message.queued id now])
    (hnow : c.env.now < now + modelOpDeadline) (hactive : f.activeArtifact ≠ some key)
    (hidle : f.activeArtifact = none ∨
      f.sessions.isQuiescent f.generation c.env.now = true) :
    f.take cfg c.env =
      some ({ f with
        queue := [], phase := .checking (c.message.queued id now) c.content }, []) := by
  obtain ⟨request, hrequest, hplain⟩ := c.plain
  obtain ⟨data, hdata, htransfer⟩ := c.transfer
  obtain ⟨profile, text, hinspected⟩ := c.inspected
  have hprepared : Frontend.handlePrepared { f with queue := [] }
      (c.message.queued id now) c.content c.env =
      ({ f with
        queue := [], phase := .checking (c.message.queued id now) c.content }, []) := by
    unfold Frontend.handlePrepared
    dsimp only
    split
    · simp [Frontend.tryActivate, c.lease]
    · rename_i active hsome
      have hne : ¬c.content.compileKey = active := by
        rintro rfl
        exact hactive hsome
      have hquiet : f.sessions.isQuiescent f.generation c.env.now = true := by
        rcases hidle with hnone | hquiet
        · rw [hnone] at hsome
          contradiction
        · exact hquiet
      simp [hne, SessionTable.hasActiveTraffic, hquiet, Frontend.tryActivate, c.lease]
  unfold Frontend.take Frontend.process
  rw [hphase, hq]
  have hlate : ¬c.env.now ≥ (c.message.queued id now).deadline := Int.not_le.mpr hnow
  have hheader : (c.message.queued id now).header = c.message.header := rfl
  have hlen : (c.message.queued id now).data = c.message.data := rfl
  simp only [if_neg hlate, hheader, hrequest, hplain, hdata, htransfer,
    Bool.false_eq_true, if_false, if_true, Frontend.handleModelData, hlen, c.accepted,
    hinspected, c.ingested, c.prepared, c.compileKey]
  exact congrArg some hprepared

/-! ## Transfer -/

/-- The labels of a transfer. -/
def transferLabels {cfg : Config} {tables : Registry} {limit : Nat} {key : PyStr}
    {generation : Int} (c : CleanTransfer cfg limit key)
    (a : CleanActivation cfg tables key generation) (now : Int) : List Label :=
  [.receive limit now c.message.parts, .take c.env tables, .usable readyArtifact,
    .start a.start, .finish a.finish, .resumeActivate now none]

/-- The frontend whose handler waits for the activation of a transfer. -/
def waiting (f : Frontend) (m : Message) (t : Transfer) : Frontend :=
  { f with received := f.received + 1, queue := [], phase := .activating m t }

/-- The frontend after the activation of a transfer. -/
def transferred (f : Frontend) (m : Message) (t : Transfer) (now : Int) : Frontend :=
  { (f.activated t).bindTransfer m t now with phase := .idle }

/-- What a transfer leaves behind: the daemon is at rest, the model is loaded and
active, and the identity is bound to it. -/
structure Transferred (tables : Registry) (key : PyStr) (identity : Bytes)
    (native : NativeWorker) (now : Int) (s t : System) : Prop where
  resting : t.Resting tables
  worker : t.sup.worker = some ⟨s.sup.nextPid, native, key⟩
  generation : t.sup.workerGeneration = s.sup.workerGeneration + 1
  active : t.frontend.activeArtifact = some key
  bound : t.frontend.Bound identity
  boundKey : boundKey t.frontend identity = some key
  rows : ∀ b ∈ t.frontend.sessions.byIdentity,
    b ∈ s.frontend.sessions.byIdentity ∨ b.lastUsedAt = now
  replaced : t.replaced = match s.frontend.activeArtifact with
    | some old => old :: s.replaced
    | none => s.replaced

/-- The first three steps of a transfer: its handler waits for the activation. -/
theorem transfer_wait {cfg : Config} {tables : Registry} {limit : Nat} {key : PyStr}
    {s : System} (hs : s.Resting tables) (c : CleanTransfer cfg limit key) (now : Int)
    (hnow : c.env.now < now + modelOpDeadline)
    (hactive : s.frontend.activeArtifact ≠ some key)
    (hidle : s.frontend.activeArtifact = none ∨
      s.frontend.sessions.isQuiescent s.frontend.generation c.env.now = true)
    {G : System → Label → Prop}
    (hreceive : ∀ s' limit now parts, G s' (.receive limit now parts))
    (htake : ∀ s' env after, G s' (.take env after))
    (husable : ∀ s' files, G s' (.usable files)) :
    (machine cfg).Run G s
      [.receive limit now c.message.parts, .take c.env tables, .usable readyArtifact]
      { s with
        frontend := waiting s.frontend (c.message.queued s.frontend.received now)
          c.content } [] := by
  have h₁ : (machine cfg).step s (.receive limit now c.message.parts) = some
      (s.afterFrontend (s.frontend.receive limit now c.message.parts)) :=
    if_pos hs.serving
  rw [c.message.receive hs.queue] at h₁
  have htaken : Frontend.take cfg c.env { s.frontend with
      received := s.frontend.received + 1
      queue := [c.message.queued s.frontend.received now] } = _ :=
    c.take hs.phase rfl hnow hactive hidle
  have hlease : { c.env with lease := c.env.lease && s.probe.isNone } = c.env := by
    rw [hs.probe, Option.isNone_none, Bool.and_true]
  have h₂ : (machine cfg).step (s.afterFrontend ({ s.frontend with
      received := s.frontend.received + 1
      queue := [c.message.queued s.frontend.received now] }, [])).1
      (.take c.env tables) =
        some ({ s with
          frontend := { s.frontend with
            received := s.frontend.received + 1
            queue := []
            phase := .checking (c.message.queued s.frontend.received now) c.content } },
          []) := by
    simp only [machine, step, afterFrontend]
    rw [hlease, htaken, hs.keepState]
    rfl
  have h₃ : (machine cfg).step { s with
      frontend := { s.frontend with
        received := s.frontend.received + 1
        queue := []
        phase := .checking (c.message.queued s.frontend.received now) c.content } }
      (.usable readyArtifact) =
        some ({ s with
          frontend := waiting s.frontend (c.message.queued s.frontend.received now)
            c.content }, []) := by
    simp only [machine, step, artifactUsable_ready]
    rfl
  exact .cons (hreceive _ _ _ _) h₁ (.cons (htake _ _ _) h₂
    (.cons (husable _ _) h₃ (.nil _)))

/-- The last three steps of a transfer: the activation and its resumption. -/
theorem transfer_activate {cfg : Config} {tables : Registry} {key : PyStr}
    {s : System} {m : Message} {t : Transfer}
    (hphase : s.frontend.phase = .activating m t) (hkey : t.compileKey = key)
    (hpending : s.pending = none) (hactivated : s.activated = none)
    (htables : ∃ state, s.sup.registry = { tables with state })
    (a : CleanActivation cfg tables key (s.sup.workerGeneration + 1)) (now : Int)
    {G : System → Label → Prop} (hstart : G s (.start a.start))
    (hfinish : ∀ s', s'.frontend = s.frontend → s'.activated = none →
      G s' (.finish a.finish))
    (hresume : ∀ s' now fault, G s' (.resumeActivate now fault)) :
    (machine cfg).Run G s
      [.start a.start, .finish a.finish, .resumeActivate now none]
      { a.finished .frontend s.sup.nextPid (a.started .frontend s) with
        activated := none
        replaced := match s.frontend.activeArtifact with
          | some old => old :: s.replaced
          | none => s.replaced
        frontend := transferred s.frontend m t now }
      [.spawned s.inhibited, .loadSent s.inhibited,
        .switched .frontend key (s.replaced.contains key),
        .replied ⟨m.id, m.identity, savedReply⟩ (some key) (some key)] := by
  have h₁ : (machine cfg).step s (.start a.start) =
      some (a.started .frontend s, [.spawned s.inhibited]) := by
    simp only [machine, step, hphase, hpending, hactivated, hkey, a.startActivation htables]
  have h₂ : (machine cfg).step (a.started .frontend s) (.finish a.finish) =
      some (a.finished .frontend s.sup.nextPid (a.started .frontend s),
        [.loadSent s.inhibited, .switched .frontend key (s.replaced.contains key)]) :=
    congrArg some (a.finishActivation .frontend s.sup.nextPid (a.started .frontend s))
  have hdone : s.frontend.activateDone now none (.ok true) =
      some ((s.frontend.activated t).bindAndReply m t now none) := by
    unfold Frontend.activateDone Frontend.activated
    rw [hphase]
    dsimp only
    cases s.frontend.activeArtifact <;> rfl
  have hbound : boundKey (transferred s.frontend m t now) m.identity = some key := by
    unfold boundKey transferred Frontend.bindTransfer
    dsimp only
    rw [SessionTable.get_bind, if_pos rfl, ← hkey]
    rfl
  have hresident : (a.finished .frontend s.sup.nextPid
      (a.started .frontend s)).sup.resident = some key := by
    simp [CleanActivation.finished, swapWorker, Supervisor.resident, a.native_loaded]
  have h₃ : (machine cfg).step (a.finished .frontend s.sup.nextPid (a.started .frontend s))
      (.resumeActivate now none) =
        some ({ a.finished .frontend s.sup.nextPid (a.started .frontend s) with
          activated := none
          replaced := match s.frontend.activeArtifact with
            | some old => old :: s.replaced
            | none => s.replaced
          frontend := transferred s.frontend m t now },
        [.replied ⟨m.id, m.identity, savedReply⟩ (some key) (some key)]) := by
    have hwaits : (a.finished .frontend s.sup.nextPid
        (a.started .frontend s)).activated = some (.ok true) := rfl
    have hfrontend : (a.finished .frontend s.sup.nextPid
        (a.started .frontend s)).frontend = s.frontend := rfl
    have hreply : (s.frontend.activated t).bindAndReply m t now none =
        (transferred s.frontend m t now, [⟨m.id, m.identity, savedReply⟩]) := rfl
    have hreplaced : (a.finished .frontend s.sup.nextPid
        (a.started .frontend s)).replacedBy =
        match s.frontend.activeArtifact with
        | some old => old :: s.replaced
        | none => s.replaced := by
      unfold replacedBy
      rw [hwaits, hfrontend]
      cases s.frontend.activeArtifact <;> rfl
    simp only [machine, step, hwaits, hfrontend, hdone, Option.map_some, afterFrontend,
      hresident, hreply, hreplaced, List.map_cons, List.map_nil, hbound]
  have hrun := Machine.Run.cons hstart h₁ (.cons (hfinish _ rfl hactivated) h₂
    (.cons (hresume _ _ _) h₃ (.nil _)))
  simpa using hrun

theorem availableReply_claimsLoaded : (availableReply true).claimsLoaded = true := by
  decide

theorem savedReply_claimsLoaded : savedReply.claimsLoaded = true := by
  decide

theorem boundKey_transferred (f : Frontend) (m : Message) (t : Transfer) (now : Int) :
    (transferred f m t now).Bound m.identity ∧
      boundKey (transferred f m t now) m.identity = some t.compileKey := by
  have hget : (transferred f m t now).sessions.get m.identity = some
      { identity := m.identity
        sourceSha256 := t.sourceSha256
        servingDigest := t.servingDigest
        compileKey := t.compileKey
        generation := (f.activated t).generation
        createdAt := now
        lastUsedAt := now } := by
    unfold transferred Frontend.bindTransfer
    dsimp only
    rw [SessionTable.get_bind, if_pos rfl]
  exact ⟨⟨_, hget, rfl⟩, by unfold boundKey; rw [hget]; rfl⟩

theorem rows_transferred {f : Frontend} {m : Message} {t : Transfer} {now : Int}
    {b : Binding} (h : b ∈ (transferred f m t now).sessions.byIdentity) :
    b ∈ f.sessions.byIdentity ∨ b.lastUsedAt = now := by
  rcases SessionTable.mem_bind h with rfl | h
  · exact Or.inr rfl
  · left
    unfold Frontend.activated at h
    split at h
    · exact h
    · rw [SessionTable.markSuperseded_byIdentity] at h
      exact (SessionTable.mem_invalidate h).1

/-- **A transfer of a prepared model loads it.**  {lit}`G` is any side condition
that the start and the end of the activation meet. -/
theorem transfer_run {cfg : Config} {tables : Registry} {limit : Nat} {key : PyStr}
    {s : System} (hs : s.Resting tables) (c : CleanTransfer cfg limit key)
    (a : CleanActivation cfg tables key (s.sup.workerGeneration + 1)) (now : Int)
    (hnow : c.env.now < now + modelOpDeadline)
    (hactive : s.frontend.activeArtifact ≠ some key)
    (hidle : s.frontend.activeArtifact = none ∨
      s.frontend.sessions.isQuiescent s.frontend.generation c.env.now = true)
    {G : System → Label → Prop}
    (hreceive : ∀ s' limit now parts, G s' (.receive limit now parts))
    (htake : ∀ s' env after, G s' (.take env after))
    (husable : ∀ s' files, G s' (.usable files))
    (hresume : ∀ s' now fault, G s' (.resumeActivate now fault))
    (hstart : ∀ s' m t, s'.frontend.phase = .activating m t → t.compileKey = key →
      s'.replaced = s.replaced → G s' (.start a.start))
    (hfinish : ∀ s', s'.frontend.activeArtifact = s.frontend.activeArtifact →
      s'.activated = none → G s' (.finish a.finish)) :
    ∃ t es, (machine cfg).Run G s (transferLabels c a now) t es ∧
      Transferred tables key c.message.identity a.native now s t ∧
      .switched .frontend key (s.replaced.contains key) ∈ es ∧
      ∃ sent, sent.reply.claimsLoaded = true ∧
        .replied sent (some key) (some key) ∈ es := by
  have hwait := transfer_wait hs c now hnow hactive hidle hreceive htake husable
  have hrun := transfer_activate (s := { s with
      frontend := waiting s.frontend (c.message.queued s.frontend.received now)
        c.content }) (G := G) rfl rfl hs.pending hs.activated hs.tables a now
    (hstart _ _ _ rfl rfl rfl)
    (fun s' h h' => hfinish s' (by rw [h]; rfl) h') hresume
  obtain ⟨state, hstate⟩ := hs.tables
  obtain ⟨hbound, hkey⟩ := boundKey_transferred
    (waiting s.frontend (c.message.queued s.frontend.received now) c.content)
    (c.message.queued s.frontend.received now) c.content now
  refine ⟨_, _, hwait.append hrun, ?_,
    List.mem_append_right _
      (List.mem_cons_of_mem _ (List.mem_cons_of_mem _ List.mem_cons_self)),
    _, savedReply_claimsLoaded, List.mem_append_right _
      (List.mem_cons_of_mem _ (List.mem_cons_of_mem _ (List.mem_cons_of_mem _
        List.mem_cons_self)))⟩
  refine ⟨⟨rfl, ?_, ?_, rfl, rfl, hs.inferred, hs.probe,
    { state with active := some ⟨key, s.sup.workerGeneration + 1,
      a.spec.servingDigest⟩ }, ?_⟩, rfl, rfl, ?_, hbound, hkey, fun b => rows_transferred,
    rfl⟩
  · change (Frontend.activated _ _).queue = []
    unfold Frontend.activated
    split <;> rfl
  · change (Frontend.activated _ _).serving = true
    unfold Frontend.activated
    split <;> exact hs.serving
  · simp only [CleanActivation.finished, CleanActivation.started, swapWorker, hstate]
    rfl
  · change (Frontend.activated _ _).activeArtifact = some key
    exact Frontend.activated_active _ _

/-! ## Inference -/

/-- An inference request whose size is that of its data. -/
structure CleanInfer (limit : Nat) where
  message : ClientMessage limit
  env : Frontend.TakeEnv
  shape : List Json
  plain : ∃ v, message.header.get (py "model_request") = .ok v ∧ v.truthy = false
  notTransfer : ∃ v, message.header.get (py "model_data") = .ok v ∧ v.truthy = false
  shaped : message.header.hasKey (py "shape") = .ok true
  tensor : Frontend.tensorShape message.header message.data = some shape

/-- The budget that is left when the request is forwarded. -/
def CleanInfer.remain {limit : Nat} (c : CleanInfer limit) (now : Int) : Int :=
  max (now + modelOpDeadline - c.env.forwarded) 0

/-- The frontend whose handler waits for an inference. -/
def forwarding {limit : Nat} (f : Frontend) (c : CleanInfer limit) (now : Int) :
    Frontend :=
  { f with
    received := f.received + 1
    queue := []
    counters := { f.counters with accepted := f.counters.accepted + 1 }
    phase := .forwarding (c.message.queued f.received now) c.shape (c.remain now) }

/-- A bound identity's request is forwarded. -/
theorem infer_wait {cfg : Config} {tables : Registry} {limit : Nat} {s : System}
    (hs : s.Resting tables) (c : CleanInfer limit)
    (hbound : s.frontend.Bound c.message.identity) (now : Int)
    (hnow : c.env.now < now + modelOpDeadline)
    (hchecked : c.env.checked < now + modelOpDeadline) {G : System → Label → Prop}
    (hreceive : ∀ s' limit now parts, G s' (.receive limit now parts))
    (htake : ∀ s' env after, G s' (.take env after)) :
    (machine cfg).Run G s [.receive limit now c.message.parts, .take c.env tables]
      { s with frontend := forwarding s.frontend c now } [] := by
  obtain ⟨request, hrequest, hplain⟩ := c.plain
  obtain ⟨data, hdata, htransfer⟩ := c.notTransfer
  obtain ⟨binding, hget, hcurrent⟩ := hbound
  let m := c.message.queued s.frontend.received now
  have h₁ : (machine cfg).step s (.receive limit now c.message.parts) = some
      (s.afterFrontend (s.frontend.receive limit now c.message.parts)) :=
    if_pos hs.serving
  rw [c.message.receive hs.queue] at h₁
  have htaken : Frontend.take cfg { c.env with lease := c.env.lease && s.probe.isNone }
      { s.frontend with
        received := s.frontend.received + 1
        queue := [m] } = some (forwarding s.frontend c now, []) := by
    have hlate : ¬c.env.now ≥ m.deadline := Int.not_le.mpr hnow
    have hlate' : ¬c.env.checked ≥ m.deadline := Int.not_le.mpr hchecked
    have hheader : m.header = c.message.header := rfl
    have hidentity : m.identity = c.message.identity := rfl
    have hpayload : m.data = c.message.data := rfl
    unfold Frontend.take Frontend.process Frontend.handleInfer
    simp only [hs.phase, if_neg hlate, if_neg hlate', hheader, hidentity, hpayload,
      hrequest, hplain, hdata, htransfer, c.shaped, c.tensor, hget, hcurrent,
      Bool.false_eq_true, if_false, ne_eq, not_true_eq_false]
    rfl
  have h₂ : (machine cfg).step (s.afterFrontend ({ s.frontend with
      received := s.frontend.received + 1, queue := [m] }, [])).1 (.take c.env tables) =
        some ({ s with frontend := forwarding s.frontend c now }, []) := by
    simp only [machine, step, afterFrontend]
    rw [htaken, hs.keepState]
    rfl
  exact .cons (hreceive _ _ _ _) h₁ (.cons (htake _ _ _) h₂ (.nil _))

/-- **An inference of a bound identity is served** when the call returns a
result. -/
theorem infer_run {cfg : Config} {tables : Registry} {limit : Nat} {s : System}
    (hs : s.Resting tables) (c : CleanInfer limit)
    (hbound : s.frontend.Bound c.message.identity) (now : Int)
    (hnow : c.env.now < now + modelOpDeadline)
    (hchecked : c.env.checked < now + modelOpDeadline) {env : InferEnv} {out : Bytes}
    (hinfer : (workerInfer env c.message.data c.shape (c.remain now) s.sup).1 =
      .ok (.ok, out)) {G : System → Label → Prop}
    (hreceive : ∀ s' limit now parts, G s' (.receive limit now parts))
    (htake : ∀ s' env after, G s' (.take env after)) (hG : ∀ s', G s' (.infer env)) :
    ∃ t, (machine cfg).Run G s
      [.receive limit now c.message.parts, .take c.env tables, .infer env] t
      [.served (boundKey s.frontend c.message.identity) s.sup.resident] := by
  have hwait : (machine cfg).Run G s _ _ _ :=
    infer_wait hs c hbound now hnow hchecked hreceive htake
  have hdata : (c.message.queued s.frontend.received now).data = c.message.data := rfl
  cases hx : workerInfer env c.message.data c.shape (c.remain now) s.sup with | mk result sup'
  rw [hx] at hinfer
  dsimp only at hinfer
  subst hinfer
  have hstep : (machine cfg).step { s with frontend := forwarding s.frontend c now }
      (.infer env) =
        some ({ s with
          sup := sup'
          frontend := forwarding s.frontend c now
          inferred := some (.ok (.ok, out)) },
        [.served (boundKey s.frontend c.message.identity) s.sup.resident]) := by
    simp only [machine, step, forwarding, hs.inferred, hs.pending]
    rw [hdata, hx]
    rfl
  exact ⟨_, hwait.append (.cons (hG _) hstep (.nil _))⟩

/-- An inference that finds the child dead fails after dropping it. -/
theorem workerInfer_of_dead {env : InferEnv} (hdead : env.alive = false)
    (hemit : env.drop.emitFault = none) (href : env.drop.refFault = none)
    {sup : Supervisor} {child : Child} (hworker : sup.worker = some child)
    (hloaded : child.native.loaded = true) (payload : Bytes) (shape : List Json)
    (timeout : Int) :
    ∃ sup' inh, workerInfer env payload shape timeout sup = (.ok (.failed, []), sup') ∧
      sup'.worker = none ∧ sup'.registry = sup.registry.record inh := by
  have hok : ∃ ref, dropRef env.drop.refFault sup = .ok ref := by
    unfold dropRef refForArtifact
    rw [href]
    split
    · exact ⟨_, rfl⟩
    · split
      · exact ⟨_, rfl⟩
      · dsimp only
        split <;> exact ⟨_, rfl⟩
  obtain ⟨ref, href⟩ := hok
  obtain ⟨hnone, hregistry⟩ := dropWorker_snd env.drop (py "WORKER_DIED") sup
  have hdrop : (dropWorker env.drop (py "WORKER_DIED") sup).1 = .ok () := by
    simp only [dropWorker, href, hemit]
  refine ⟨_, _, ?_, hnone, hregistry⟩
  unfold workerInfer failedAfterDrop
  simp only [hworker, hloaded, hdead, Bool.not_true, Bool.not_false, Bool.false_eq_true,
    if_false, if_true, hdrop]

/-- Touching an identity keeps every binding. -/
theorem boundKey_touch (f : Frontend) (identity who : Bytes) (now : Int) :
    boundKey { f with sessions := f.sessions.touch identity now } who =
      boundKey f who := by
  unfold boundKey
  dsimp only
  rw [SessionTable.get_touch, Option.map_map]
  congr 1
  funext b
  simp only [Function.comp_apply]
  split <;> rfl

/-- **An inference that finds the child dead drops the worker** and leaves the
binding and the active artifact as they were. -/
theorem drop_run {cfg : Config} {tables : Registry} {limit : Nat} {s : System}
    (hs : s.Resting tables) (c : CleanInfer limit)
    (hbound : s.frontend.Bound c.message.identity) (now : Int)
    (hnow : c.env.now < now + modelOpDeadline)
    (hchecked : c.env.checked < now + modelOpDeadline) {env : InferEnv}
    (hdead : env.alive = false) (hemit : env.drop.emitFault = none)
    (href : env.drop.refFault = none) {child : Child} (hworker : s.sup.worker = some child)
    (hloaded : child.native.loaded = true) :
    ∃ t es, (machine cfg).exec
        [.receive limit now c.message.parts, .take c.env tables, .infer env,
          .resumeInfer now] s = some (t, es) ∧
      t.Resting tables ∧ t.sup.worker = none ∧
      t.frontend.activeArtifact = s.frontend.activeArtifact ∧
      t.frontend.Bound c.message.identity ∧
      boundKey t.frontend c.message.identity = boundKey s.frontend c.message.identity := by
  have hwait : (machine cfg).Run (fun _ _ => True) s _ _ _ :=
    infer_wait hs c hbound now hnow hchecked (fun _ _ _ _ => trivial) fun _ _ _ => trivial
  obtain ⟨sup', inh, hinfer, hnone, hregistry⟩ := workerInfer_of_dead hdead hemit href
    hworker hloaded c.message.data c.shape (c.remain now)
  have h₁ : (machine cfg).step { s with frontend := forwarding s.frontend c now }
      (.infer env) =
        some ({ s with
          sup := sup'
          frontend := forwarding s.frontend c now
          inferred := some (.ok (.failed, [])) }, []) := by
    simp only [machine, step, forwarding, hs.inferred, hs.pending]
    have hdata : (c.message.queued s.frontend.received now).data = c.message.data := rfl
    rw [hdata, hinfer]
  have h₂ : ∃ counters es, (machine cfg).step { s with
        sup := sup'
        frontend := forwarding s.frontend c now
        inferred := some (.ok (.failed, [])) } (.resumeInfer now) =
      some ({ s with
        sup := sup'
        frontend := { s.frontend with
          received := s.frontend.received + 1
          queue := []
          counters
          sessions := s.frontend.sessions.touch c.message.identity now
          phase := .idle }
        inferred := none }, es) := ⟨_, _, rfl⟩
  obtain ⟨counters, es, h₂⟩ := h₂
  refine ⟨_, _, (hwait.append (.cons trivial h₁ (.cons trivial h₂ (.nil _)))).exec,
    ⟨rfl, rfl, hs.serving, hs.pending, hs.activated, rfl, hs.probe, ?_⟩, hnone, rfl,
    hbound.touch now, ?_⟩
  · obtain ⟨state, hstate⟩ := hs.tables
    rw [hregistry, hstate]
    cases inh with
    | none => exact ⟨state, rfl⟩
    | some inh => exact ⟨{ state with inhibition := some inh }, rfl⟩
  · exact boundKey_touch _ _ _ _

/-! ## Model request -/

/-- A message that asks for a model. -/
structure CleanRequest (limit : Nat) where
  message : ClientMessage limit
  env : Frontend.TakeEnv
  request : ∃ v, message.header.get (py "model_request") = .ok v ∧ v.truthy = true

/-- **A bound identity that asks for its model is told it is loaded.** -/
theorem request_run {cfg : Config} {tables : Registry} {limit : Nat} {s : System}
    (hs : s.Resting tables) (c : CleanRequest limit)
    (hbound : s.frontend.Bound c.message.identity) {key : PyStr} (hkey : key ≠ [])
    (hactive : s.frontend.activeArtifact = some key) (now : Int)
    (hnow : c.env.now < now + modelOpDeadline) :
    ∃ t sent, (machine cfg).exec [.receive limit now c.message.parts, .take c.env tables]
        s = some (t, [.replied sent (boundKey s.frontend c.message.identity)
          s.sup.resident]) ∧ sent.reply.claimsLoaded = true := by
  obtain ⟨request, hrequest, htruthy⟩ := c.request
  obtain ⟨binding, hget, hcurrent⟩ := hbound
  let m := c.message.queued s.frontend.received now
  have hasked : Frontend.take cfg { c.env with lease := c.env.lease && s.probe.isNone }
      { s.frontend with
        received := s.frontend.received + 1
        queue := [m] } =
      some ({ s.frontend with
        received := s.frontend.received + 1
        queue := []
        sessions := s.frontend.sessions.touch c.message.identity c.env.now
        phase := .idle }, [⟨m.id, c.message.identity, availableReply true⟩]) := by
    have hlate : ¬c.env.now ≥ m.deadline := Int.not_le.mpr hnow
    have hheader : m.header = c.message.header := rfl
    have hidentity : m.identity = c.message.identity := rfl
    unfold Frontend.take Frontend.process Frontend.handleModelRequest
    simp only [hs.phase, if_neg hlate, hheader, hidentity, hrequest, htruthy, if_true,
      hget, hcurrent, hactive, Option.getD_some, beq_self_eq_true, Bool.true_and,
      decide_eq_true_eq, ne_eq, hkey, not_false_eq_true]
    rfl
  have h₁ : (machine cfg).step s (.receive limit now c.message.parts) = some
      (s.afterFrontend (s.frontend.receive limit now c.message.parts)) :=
    if_pos hs.serving
  rw [c.message.receive hs.queue] at h₁
  have hkept : boundKey { s.frontend with
      received := s.frontend.received + 1
      queue := []
      sessions := s.frontend.sessions.touch c.message.identity c.env.now
      phase := .idle } c.message.identity =
      boundKey s.frontend c.message.identity := boundKey_touch _ _ _ _
  have h₂ : (machine cfg).step (s.afterFrontend ({ s.frontend with
      received := s.frontend.received + 1, queue := [m] }, [])).1 (.take c.env tables) =
        some ({ s with
          frontend := { s.frontend with
            received := s.frontend.received + 1
            queue := []
            sessions := s.frontend.sessions.touch c.message.identity c.env.now
            phase := .idle } },
          [.replied ⟨m.id, c.message.identity, availableReply true⟩
            (boundKey s.frontend c.message.identity) s.sup.resident]) := by
    simp only [machine, step, afterFrontend]
    rw [hasked, hs.keepState]
    simp only [List.map_cons, List.map_nil, hkept]
  have hrun : (machine cfg).Run (fun _ _ => True) s _ _ _ :=
    .cons trivial h₁ (.cons trivial h₂ (.nil _))
  exact ⟨_, _, hrun.exec, availableReply_claimsLoaded⟩

/-! ## Two prepared models -/

/-- A configuration that allows uploads. -/
def uploadConfig : Config :=
  ⟨py "/data", none, true⟩

/-- A finished job. -/
def preparedRow (ref key : PyStr) : JobRow where
  uuid := key
  ref := ref
  compileKey := some key
  stage := .prepared
  attempt := 1
  createdAt := 0
  updatedAt := 0
  bootToken := none
  progress := none
  errorCode := none
  failure := none
  sourceSha256 := some key

/-- A registry with two prepared models. -/
def twoModels : Registry where
  jobs := [preparedRow (py "plus://a") (py "a"), preparedRow (py "plus://b") (py "b")]
  artifacts := [⟨py "a", py "a", [], []⟩, ⟨py "b", py "b", [], []⟩]

/-- A file system without links and without home directories. -/
def plainFiles : RefEnv :=
  ⟨id, id, id⟩

/-- The worker after a clean load. -/
def loadedNative (generation : Int) : NativeWorker :=
  ⟨generation, 2, true, some loadTimeout, .empty⟩

/-- A child that answers the LOAD with a clean {lit}`STATUS`. -/
theorem spawned_load {artifactPath servingDigest : PyStr} {generation : Int}
    (h : (sendMessage (NativeWorker.loadHeader 1 artifactPath generation servingDigest 80)
      []).toBool = true) :
    ∃ served, NativeWorker.spawned.load (hearing (ReplyChannel.reply loadedReply))
      artifactPath generation servingDigest 80 loadTimeout =
        (.ok served, loadedNative generation) := by
  obtain ⟨rep, out, ⟨htype, hcode⟩, hrecv⟩ := loadedReply_message
  exact NativeWorker.load_of_reply rfl rfl rfl h (by decide) (by decide) rfl hrecv htype
    hcode

/-- An activation of a prepared model in which nothing fails. -/
def cleanActivation (key : PyStr) (generation : Int)
    (hkey : (twoModels.getArtifact key).isSome)
    (hsend : (sendMessage (NativeWorker.loadHeader 1 (artifactPath uploadConfig key)
      generation (py "srv") 80) []).toBool = true) :
    CleanActivation uploadConfig twoModels key generation where
  start :=
    { inspect :=
        { artifactFault := none
          sourceFault := none
          inspection := .ok ⟨some (py "yolo-raw"), [], 84⟩
          servingDigest := py "srv"
          artifactFile := true
          text := [] }
      spawn := .ok ()
      fail := ⟨none, ⟨false, 0, []⟩⟩ }
  finish :=
    { load := hearing (ReplyChannel.reply loadedReply)
      codeText := []
      newDead := true
      oldDead := true
      publishFault := none
      artifactFault := none
      checkFault := none
      fail := ⟨none, ⟨false, 0, []⟩⟩ }
  spec := ⟨artifactPath uploadConfig key, py "srv", 80⟩
  native := loadedNative generation
  inspect state := by
    obtain ⟨row, hrow⟩ := Option.isSome_iff_exists.mp hkey
    have hget : Registry.getArtifact { twoModels with state } key = some row := hrow
    simp [inspectActivation, hget]
  spawn := rfl
  load := spawned_load hsend
  publish := rfl
  artifact := rfl
  check := rfl
  oldDead := rfl

/-- A message with a small header. -/
def smallMessage (identity : Bytes) (header : Json) (text : String) (data : Bytes)
    (hne : (py text).map UInt8.ofNat ≠ [])
    (hlen : ((py text).map UInt8.ofNat).length ≤ maxHeaderBytes)
    (hparse : loads 1000 ((py text).map UInt8.ofNat) = .ok header) :
    ClientMessage 1000 :=
  ⟨identity, (py text).map UInt8.ofNat, data, header, hne, hlen, hparse⟩

/-- A transfer that the ingest resolves to a prepared model. -/
def cleanTransfer (identity : Bytes) (key : PyStr) (now : Int) :
    CleanTransfer uploadConfig 1000 key where
  message := smallMessage identity (.obj [(py "model_data", .int 1)])
    "\x7b\"model_data\":1\x7d" [0] (by decide +kernel)
    (by decide +kernel) (by decide +kernel)
  env :=
    { now
      checked := now
      forwarded := now
      sha256 := key
      inspection := .ok (some (py "yolo-raw"), [])
      ingest := .ok ⟨key, py "srv", true, py "PREPARED"⟩
      lease := true
      emitFault := none }
  result := ⟨key, py "srv", true, py "PREPARED"⟩
  plain := ⟨.null, rfl, rfl⟩
  transfer := ⟨.int 1, rfl, rfl⟩
  accepted := rfl
  inspected := ⟨_, _, rfl⟩
  ingested := rfl
  prepared := rfl
  compileKey := rfl
  lease := rfl

theorem tensorShape_single :
    Frontend.tensorShape
      (.obj [(py "shape", .arr [.int 1]), (py "dtype", .str (py "float32"))])
      [0, 0, 0, 0] = some [.int 1] := by
  decide +kernel

/-- A request for one value. -/
def cleanInfer (identity : Bytes) : CleanInfer 1000 where
  message := smallMessage identity
    (.obj [(py "shape", .arr [.int 1]), (py "dtype", .str (py "float32"))])
    "\x7b\"shape\":[1],\"dtype\":\"float32\"\x7d" [0, 0, 0, 0] (by decide +kernel)
    (by decide +kernel) (by decide +kernel)
  env :=
    { now := 0
      checked := 0
      forwarded := 0
      sha256 := []
      inspection := .ok (none, [])
      ingest := .error (.builtin .valueError)
      lease := true
      emitFault := none }
  shape := [.int 1]
  plain := ⟨.null, rfl, rfl⟩
  notTransfer := ⟨.null, rfl, rfl⟩
  shaped := rfl
  tensor := tensorShape_single

/-- A question for the bound model. -/
def cleanRequest (identity : Bytes) : CleanRequest 1000 where
  message := smallMessage identity (.obj [(py "model_request", .int 1)])
    "\x7b\"model_request\":1\x7d" [] (by decide +kernel) (by decide +kernel)
    (by decide +kernel)
  env :=
    { now := 0
      checked := 0
      forwarded := 0
      sha256 := []
      inspection := .ok (none, [])
      ingest := .error (.builtin .valueError)
      lease := true
      emitFault := none }
  request := ⟨.int 1, rfl, rfl⟩

/-- An inference that the child answers in time. -/
def answeredInfer : InferEnv where
  alive := true
  exchange := hearing (ReplyChannel.reply firstReply)
  drop := ⟨true, none, ⟨false, 0, []⟩, none⟩

/-- An inference that finds the child dead. -/
def deadInfer : InferEnv where
  alive := false
  exchange := hearing []
  drop := ⟨true, none, ⟨false, 0, []⟩, none⟩

/-- A freshly loaded worker serves its first inference. -/
theorem workerInfer_answered {sup : Supervisor} {pid : Nat} {key : PyStr}
    {generation : Int} (hworker : sup.worker = some ⟨pid, loadedNative generation, key⟩)
    (hsend : (sendMessage (NativeWorker.inferHeader 2 [.int 1] generation)
      [0, 0, 0, 0]).toBool = true) {timeout : Int} (ht : 0 ≤ timeout) :
    ∃ out, (workerInfer answeredInfer [0, 0, 0, 0] [.int 1] timeout sup).1 =
      .ok (.ok, out) := by
  obtain ⟨rep, out, ⟨htype, hcode⟩, ⟨hlen, -⟩, hrecv⟩ := firstReply_message
  have hinfer : (loadedNative generation).infer answeredInfer.exchange [0, 0, 0, 0]
      [.int 1] generation timeout = _ :=
    NativeWorker.infer_of_reply rfl rfl rfl hsend ht rfl hrecv htype hcode hlen
  refine ⟨out, ?_⟩
  have hgeneration : (loadedNative generation).generation = generation := rfl
  have hloaded : (loadedNative generation).loaded = true := rfl
  have halive : answeredInfer.alive = true := rfl
  simp only [workerInfer, hworker, hloaded, halive, hgeneration, hinfer, Bool.not_true,
    Bool.false_eq_true, if_false]

/-- The explicit activation of a prepared model finds its artifact. -/
theorem activateKey_prepared {arg key : PyStr} {parsed : ParsedRef}
    (hparse : parseRef plainFiles uploadConfig.modelDir arg = .ok parsed)
    (hprepared : twoModels.preparedKey parsed.ref = some key) (state : ServiceState) :
    activateKey uploadConfig true false plainFiles arg { twoModels with state } =
      .ok key := by
  have hkey : Registry.preparedKey { twoModels with state } parsed.ref = some key :=
    hprepared
  simp only [activateKey, hparse, hkey, Bool.not_true, Bool.false_and,
    Bool.false_eq_true, if_false]

theorem activateKey_first (state : ServiceState) :
    activateKey uploadConfig true false plainFiles (py "plus://a")
      { twoModels with state } = .ok (py "a") :=
  have hparse : parseRef plainFiles uploadConfig.modelDir (py "plus://a") =
      .ok ⟨.plus, some (py "a"), none, py "plus://a"⟩ := by
    decide +kernel
  activateKey_prepared hparse (by decide +kernel) state

theorem activateKey_second (state : ServiceState) :
    activateKey uploadConfig true false plainFiles (py "plus://b")
      { twoModels with state } = .ok (py "b") :=
  have hparse : parseRef plainFiles uploadConfig.modelDir (py "plus://b") =
      .ok ⟨.plus, some (py "b"), none, py "plus://b"⟩ := by
    decide +kernel
  activateKey_prepared hparse (by decide +kernel) state

/-- The first transfer to a fresh process. -/
theorem first_transfer {G : System → Label → Prop}
    (hreceive : ∀ s' limit now parts, G s' (.receive limit now parts))
    (htake : ∀ s' env after, G s' (.take env after))
    (husable : ∀ s' files, G s' (.usable files))
    (hresume : ∀ s' now fault, G s' (.resumeActivate now fault))
    (hstart : ∀ s' env, s'.replaced = [] → G s' (.start env))
    (hfinish : ∀ s' env, s'.frontend.activeArtifact = none → s'.activated = none →
      G s' (.finish env)) :
    ∃ as t es, (machine uploadConfig).Run G (fresh twoModels) as t es ∧
      Transferred twoModels (py "a") [1] (loadedNative 1) 0 (fresh twoModels) t ∧
      .switched .frontend (py "a") false ∈ es ∧
      ∃ sent, sent.reply.claimsLoaded = true ∧
        .replied sent (some (py "a")) (some (py "a")) ∈ es := by
  have hsend : (sendMessage (NativeWorker.loadHeader 1 (artifactPath uploadConfig (py "a"))
      1 (py "srv") 80) []).toBool = true := by
    decide +kernel
  have hrun := transfer_run (resting_fresh twoModels) (cleanTransfer [1] (py "a") 0)
    (cleanActivation (py "a") 1 (by decide) hsend) 0 (by decide) (by simp [fresh])
    (Or.inl rfl) hreceive htake husable hresume
    (fun s' m t _ _ h => hstart s' _ h) (fun s' h h' => hfinish s' _ h h')
  obtain ⟨t, es, hrun, ht, hswitched, hreplied⟩ := hrun
  exact ⟨_, t, es, hrun, ht, hswitched, hreplied⟩

end System
end FrigateXdna
