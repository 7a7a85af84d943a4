import FrigateXdna.Supervisor.Manager

/-!
# The job manager

{lit}`JobManager` opens attempts, joins live ones, advances them and records how they
ended.  {lit}`submit`, {lit}`requeue` and each row of {lit}`retry_due` run inside one
registry transaction; {lit}`pump` does not, so its statements are separate actions.

Main results:

- Definition {lit}`JobManager.submit`, {lit}`JobManager.maybeResume`,
  {lit}`JobManager.requeue`: the three ways to open an attempt.
- Definition {lit}`JobManager.pump`: one advance of one job.
- Definition {lit}`Act.exec`: transactions as single actions.
-/

namespace FrigateXdna

open Python Library

/-! ## The backend factory -/

/-- The keyword arguments of the backend factory. -/
structure BackendArgs where
  sourceSha256 : PyStr
  compileKey : PyStr
  sourcePath : Option SourcePath
  deviceHeldByWorker : Bool

/-- {lit}`_compile_source_path`. -/
def compileSourcePath (sha256 : PyStr) : Prog SourcePath := do
  match ← read fun s => s.registry.getSource sha256 with
  | none =>
      .raise (.fxdna ⟨exitCacheCorrupt, py "CACHE_CORRUPT",
        py "source bytes missing for resumed compile " ++ sha256.take 12 ++
          8230 :: py "; re-submit explicitly"⟩)
  | some src =>
      if ← read fun s => (s.disk.sources.lookup (src.sha256, src.fileName)).isSome then
        return (src.sha256, src.fileName)
      else
        .raise (.fxdna ⟨exitCacheCorrupt, py "CACHE_CORRUPT",
          py "source file missing for resumed compile " ++ sha256.take 12 ++
            8230 :: py "; re-submit explicitly"⟩)

/-- {lit}`_make_backend_job`. -/
def makeBackendJob (setup : Setup) (kw : BackendArgs) : Prog Backend :=
  if setup.real && !kw.compileKey.isEmpty then
    match kw.sourcePath with
    | some source =>
        .ret (.real { sourceSha256 := kw.sourceSha256, compileKey := kw.compileKey, source })
    | none => do
        let source ← compileSourcePath kw.sourceSha256
        return .real { sourceSha256 := kw.sourceSha256, compileKey := kw.compileKey, source }
  else
    .ret (.fake
      { sourceSha256 := kw.sourceSha256
        compileKey := kw.compileKey
        duration := setup.fakeCompile.duration
        succeed := setup.fakeCompile.succeed
        failState := setup.fakeCompile.failState
        deviceRequired := setup.fakeCompile.deviceRequired
        deviceHeldByWorker :=
          setup.fakeCompile.deviceHeldByWorker.getD kw.deviceHeldByWorker
        detail := setup.fakeCompile.detail })

namespace JobManager

variable (setup : Setup)

/-! ## Rows -/

/-- {lit}`assert job is not None`. -/
def someJob (uuid : PyStr) : Prog JobRow := do
  match ← read fun s => s.registry.getJob uuid with
  | some job => return job
  | none => .raise (.builtin .runtimeError)

/-- {lit}`create_job` under a new id. -/
def newRow (row : NewJob) : Prog PyStr :=
  .act (.createJob row) fun s => .ret (setup.uuid4 s.minted)

/-- {lit}`record_terminal`. -/
def recordTerminal (uuid : PyStr) (stage : Stage) (errorCode : Option PyStr)
    (detail errorText : PyStr) : Prog JobRow := do
  let job ← someJob uuid
  let prev := (job.failure.bind Failure.history).getD []
  let record ← read fun s =>
    newRecord s.memlockAdequate stage errorCode detail job.attempt s.now prev errorText
  exec (.setFailure uuid record)
  someJob uuid

/-! ## Opening attempts -/

/-- The mapping {lit}`extra` of {lit}`submit`. -/
structure Extra where
  sourceSha256 : Option PyStr := none
  sourcePath : Option SourcePath := none

/-- {lit}`_carry_aliases`. -/
def carryAliases (uuid ref prevUuid : PyStr) : Prog Unit := do
  let refs ← read fun s => s.registry.refsForJob prevUuid
  Program.forEach (refs.filter fun alias_ => !(alias_ == ref)) fun alias_ =>
    exec (.addAlias uuid alias_)

/-- The text of an exception. -/
def errorText : Raised → PyStr
  | .fxdna e => e.message
  | .worker _ => []
  | .builtin _ => []

/-- {lit}`_spawn_backend`: a refused construction deletes the new row and stamps the old
one. -/
def spawnBackend (uuid : PyStr) (kw : BackendArgs) (prevUuid : PyStr) : Prog Bool := do
  match ← (makeBackendJob setup kw).attempt with
  | .ok backend =>
      exec (.putBackend uuid backend)
      return true
  | .error e =>
      exec (.deleteJob uuid)
      match ← read fun s => s.registry.getJob prevUuid with
      | none => return false
      | some prior =>
          exec (.setFailure prevUuid
            { prior.failure.getD {} with resumeRefused := some ((errorText e).take 200) })
          return false

/-- {lit}`_new_attempt`. -/
def newAttempt (ref : PyStr) (key : Option PyStr) (prev : Failure) (held : Bool)
    (extra : Extra) (prevUuid : PyStr) (sourceSha256 : Option PyStr) :
    Prog (Option JobRow) := do
  let uuid ← newRow setup
    { ref, compileKey := key, attempt := prev.attempts.getD 0 + 1, sourceSha256 }
  exec (.setFailure uuid
    { resumedFrom := some prevUuid, history := some (prev.history.getD []) })
  carryAliases uuid ref prevUuid
  let kw : BackendArgs :=
    { sourceSha256 := (extra.sourceSha256.or sourceSha256).getD []
      compileKey := key.getD []
      sourcePath := extra.sourcePath
      deviceHeldByWorker := held }
  if ← spawnBackend setup uuid kw prevUuid then do
    exec (.setRefState ref (py "QUEUED"))
    let job ← someJob uuid
    return some job
  else
    return none

/-- {lit}`a or b` for optional texts. -/
def orText (a b : Option PyStr) : Option PyStr :=
  if (a.getD []).isEmpty then b else a

/-- Whether a key, if there is one, has a live job. -/
def hasLive (s : Manager) (key : Option PyStr) : Bool :=
  !(key.getD []).isEmpty && (s.registry.liveJobForKey (key.getD [])).isSome

/-- {lit}`_maybe_resume`. -/
def maybeResume (ref : PyStr) (key : Option PyStr) (failed : JobRow) (held : Bool)
    (extra : Extra) : Prog (Option JobRow) := do
  if ← read fun s => hasLive s key then
    return none
  else if ← read fun s => s.registry.state.inhibition.isSome then
    return none
  else
    match failed.failure with
    | none => return none
    | some record =>
        if ← read fun s => (autoEligible s.memlockAdequate (some record) s.now).1 then do
          match ← newAttempt setup ref key record held extra failed.uuid
              (orText extra.sourceSha256 failed.sourceSha256) with
          | none => return none
          | some new =>
              exec (.setFailure failed.uuid { record with resumedTo := some new.uuid })
              return some new
        else
          return none

/-- {lit}`_submit_terminal`. -/
def submitTerminal (ref : PyStr) (key : Option PyStr) (existing : JobRow)
    (extra : Extra) : Prog JobRow := do
  let full ← someJob existing.uuid
  match ← maybeResume setup ref key full setup.fakeCompile.deviceRequired extra with
  | some new => return new
  | none => return existing

/-- {lit}`_create`. -/
def create (ref : PyStr) (key : Option PyStr) (extra : Extra) : Prog JobRow := do
  let uuid ← newRow setup
    { ref, compileKey := key, attempt := 1, sourceSha256 := extra.sourceSha256 }
  let backend ← makeBackendJob setup
    { sourceSha256 := extra.sourceSha256.getD []
      compileKey := key.getD []
      sourcePath := extra.sourcePath
      deviceHeldByWorker := setup.fakeCompile.deviceRequired }
  exec (.putBackend uuid backend)
  someJob uuid

/-- The oldest live job of a key, as {lit}`submit` looks for it. -/
def oldestLive (s : Manager) (key : Option PyStr) : Option JobRow :=
  if (key.getD []).isEmpty then none
  else
    newestBy (fun j => -j.createdAt)
      (s.registry.jobs.filter fun j => j.compileKey == key && !j.stage.terminal)

/-- Join the live job of the key, or create one. -/
def joinOrCreate (ref : PyStr) (key : Option PyStr) (extra : Extra) : Prog JobRow := do
  match ← read fun s => oldestLive s key with
  | some live =>
      exec (.addAlias live.uuid ref)
      return live
  | none => create setup ref key extra

/-- {lit}`submit`, inside its transaction. -/
def submit (ref : PyStr) (key : Option PyStr) (extra : Extra) : Prog JobRow := do
  match ← read fun s => s.registry.findJob ref key with
  | none => joinOrCreate setup ref key extra
  | some existing =>
      if !existing.stage.terminal then do
        exec (.addAlias existing.uuid ref)
        return existing
      else if existing.stage.terminalError then
        submitTerminal setup ref key existing extra
      else if ← read fun s => !(key.getD []).isEmpty &&
          (s.registry.getArtifact (key.getD [])).isSome then
        return existing
      else
        joinOrCreate setup ref key extra

/-- One row of {lit}`retry_due`, inside its transaction. -/
def resumeRow (uuid ref : PyStr) (key : Option PyStr) : Prog (Option JobRow) := do
  match ← read fun s => s.registry.getJob uuid with
  | none => return none
  | some full => maybeResume setup ref key full setup.fakeCompile.deviceRequired {}

/-- {lit}`_requeue_prev`. -/
def requeuePrev (full : JobRow) : Option Failure :=
  match full.failure with
  | none =>
      if [Stage.quarantined, .validationFailed, .unsupportedContract].contains full.stage
      then none
      else some { attempts := some 0, history := some [] }
  | some record =>
      if record.kind == some .safety || record.kind == some .permanent then none
      else if record.retryable.getD false then some { record with attempts := some 0 }
      else none

/-- {lit}`requeue`, inside its transaction; the texts of its refusals are not modelled. -/
def requeue (ref : PyStr) (key : Option PyStr) : Prog (Option JobRow) := do
  match ← read fun s => s.registry.findJob ref key with
  | none => return none
  | some existing =>
      if !existing.stage.terminalError then
        return none
      else if ← read fun s => s.registry.state.inhibition.isSome then
        return none
      else do
        let full ← someJob existing.uuid
        match requeuePrev full with
        | none => return none
        | some prev =>
            if ← read fun s => hasLive s key then
              return none
            else
              match ← newAttempt setup ref key prev false {} existing.uuid
                  full.sourceSha256 with
              | none => return none
              | some new =>
                  exec (.setFailure existing.uuid
                    { full.failure.getD {} with resumedTo := some new.uuid })
                  return some new

/-! ## Advancing -/

/-- {lit}`_finish_terminal`. -/
def finishTerminal (uuid : PyStr) (backend : Backend) (job : JobRow) : Prog JobRow := do
  let job ← recordTerminal uuid job.stage job.errorCode backend.evidence.1
    backend.evidence.2
  match ← maybeResume setup job.ref job.compileKey job false {} with
  | some new => return new
  | none => return job

/-- {lit}`backend.poll`; the result is the backend afterwards. -/
def pollBackend (uuid : PyStr) (dt : Int) (backend : Backend) : Prog Backend :=
  .act (.poll uuid dt) fun s =>
    .ret (((s.backends.lookup uuid).getD backend).poll dt)

/-- {lit}`bool(record)`. -/
def hasRecord (job : JobRow) : Bool :=
  job.failure.any fun record => !record.isEmpty

/-- {lit}`JobManager.pump`. -/
def pump (uuid : PyStr) (dt : Int) : Prog JobRow := do
  match ← read fun s => s.backends.lookup uuid with
  | none =>
      match ← read fun s => s.registry.getJob uuid with
      | none =>
          .raise (.fxdna ⟨exitNotReady, py "UNKNOWN_JOB", py "no such job " ++ uuid⟩)
      | some job => return job
  | some backend => do
      let prev ← read fun s => s.registry.getJob uuid
      let backend ← pollBackend uuid dt backend
      let stage := backend.state
      exec (.setJob uuid stage (if stage.terminalError then some stage.text else none))
      let job ← someJob uuid
      if stage.terminalError && !(prev.map JobRow.stage == some stage && hasRecord job) then
        finishTerminal setup uuid backend job
      else
        return job

end JobManager

/-! ## Transactions -/

/-- A single statement, or a transaction of the job manager. -/
inductive Act
  | stmt (a : Stmt)
  | submit (ref : PyStr) (key : Option PyStr) (extra : JobManager.Extra)
  | resume (uuid ref : PyStr) (key : Option PyStr)
  | requeue (ref : PyStr) (key : Option PyStr)

/-- A thread of the manager process. -/
abbrev ThreadProg (β : Type) :=
  Program Manager Act Raised β

/-- A transaction that raises leaves the registry as it was. -/
def transaction {β : Type} (setup : Setup) (p : Prog β) (s : Manager) :
    Manager × Except Raised β :=
  match p.run (Stmt.exec setup) s with
  | (s', .ok b) => (s', .ok b)
  | (s', .error e) => ({ s' with registry := s.registry }, .error e)

/-- What an action does. -/
def Act.exec (setup : Setup) (a : Act) (s : Manager) : Manager :=
  match a with
  | .stmt a => a.exec setup s
  | .submit ref key extra => (transaction setup (JobManager.submit setup ref key extra) s).1
  | .resume uuid ref key => (transaction setup (JobManager.resumeRow setup uuid ref key) s).1
  | .requeue ref key => (transaction setup (JobManager.requeue setup ref key) s).1

/-- The statements of a program as separate actions of a thread. -/
def spread {β : Type} (p : Prog β) : ThreadProg β :=
  p.relabel Act.stmt

/-- A transaction as one action of a thread. -/
def atomically {β : Type} (setup : Setup) (a : Act) (p : Prog β) : ThreadProg β :=
  .act a fun s =>
    match (transaction setup p s).2 with
    | .ok b => .ret b
    | .error e => .raise e

end FrigateXdna
