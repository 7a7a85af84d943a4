import Mathlib.Data.List.Lex
import Mathlib.Data.List.Sort
import FrigateXdna.Compiler.Attempts
import FrigateXdna.Supervisor.Recovery

/-!
# How the supervisor prepares models

The methods that ingest a source, publish a compiled artifact, advance the jobs and
repair the data dir at a start, as programs of atomic actions.

Main results:

- Definition {lit}`ingestSource`: from source bytes to a cache hit or a submitted job.
- Definition {lit}`prepareCall`, {lit}`reconcileConfigured`: how refs are prepared.
- Definition {lit}`publishResult`: the commit of a compiled artifact.
- Definition {lit}`pump`, {lit}`waitStep`: how jobs advance.
- Definition {lit}`construct`: what a start of the manager process repairs.
-/

namespace FrigateXdna

open Python Library

variable (setup : Setup)

/-! ## Artifacts -/

/-- {lit}`publish_artifact`. -/
def publishArtifact (key uuid : PyStr) (data : Bytes) (manifest : Json) : Prog Unit := do
  if ← read fun s => s.disk.hasArtifact key then
    .raise (.fxdna ⟨exitCacheCorrupt, py "CACHE_CORRUPT",
      py "refusing to overwrite committed " ++ key⟩)
  else do
    exec (.stageModel uuid data)
    exec (.stageManifest uuid manifest)
    exec (.commitStaged uuid key)

/-- A failed publication. -/
def publishError (message : PyStr) : Raised :=
  .fxdna ⟨5, py "COMPILE_FAILED", message⟩

/-- The bytes that a backend leaves to publish. -/
def artifactBytes (key : PyStr) (backend : Backend) : Except Raised Bytes :=
  match backend with
  | .fake _ =>
      match utf8Encode (py "FXDNA-FAKE-RAI-v0:" ++ key) with
      | .ok data => .ok data
      | .error e => .error (.builtin e)
  | .real j =>
      match j.result.bind CompileResult.rai with
      | none => .error (publishError (py "real backend produced no artifact"))
      | some none => .error (publishError (py "cannot read compiler artifact"))
      | some (some data) => .ok data

/-- {lit}`_publish_result` once the key is known to have neither row nor directory. -/
def publishStaged (job : JobRow) (key : PyStr) : Prog Unit := do
  exec (.makeStaged job.uuid)
  let source ← read fun s =>
    (JobManager.orText job.sourceSha256
      ((s.registry.getRef job.ref).bind RefRow.sourceSha256)).getD []
  match ← read fun s => s.backends.lookup job.uuid with
  | none => .raise (publishError (py "no backend object for job"))
  | some backend =>
      match artifactBytes key backend with
      | .error e => .raise e
      | .ok data => do
          publishArtifact key job.uuid data
            (publishedManifest backend.backendId key source (setup.sha256 data))
          exec (.addArtifact ⟨key, source, setup.sha256 data, recipeId⟩)

/-- {lit}`_publish_result`. -/
def publishResult (job : JobRow) : Prog Unit := do
  let key := job.compileKey.getD []
  if ← read fun s => (s.registry.getArtifact key).isSome then
    return ()
  else do
    whenever (← read fun s => s.disk.hasArtifact key) (exec (.moveArtifact key false))
    publishStaged setup job key

/-- {lit}`_invalidate_artifact`. -/
def invalidateArtifact (key : PyStr) : Prog Unit := do
  whenever (← read fun s => s.disk.hasArtifact key) (exec (.moveArtifact key true))
  exec (.deleteArtifact key)

/-! ## Ref states -/

/-- Set the state of several refs. -/
def setRefStates (refs : List PyStr) (state : PyStr) : Prog Unit :=
  Program.forEach refs fun ref => exec (.setRefState ref state)

/-- The refs with a job of a key, their own or joined. -/
def refsForKey (r : Registry) (key : PyStr) : List PyStr :=
  let jobs := r.jobs.filter fun j => j.compileKey == some key
  let joined := r.aliases.filter fun a => jobs.any fun j => j.uuid == a.1
  (jobs.map JobRow.ref ++ joined.map Prod.snd).dedup

/-- {lit}`_mark_prepared_refs`. -/
def markPreparedRefs (key : PyStr) : Prog Unit := do
  let refs ← read fun s => refsForKey s.registry key
  setRefStates refs (py "PREPARED")

/-- The refs of a job take a state. -/
def markJobRefs (uuid : PyStr) (stage : Stage) : Prog Unit := do
  let refs ← read fun s => s.registry.refsForJob uuid
  setRefStates refs stage.text

/-! ## Sources -/

/-- Where source bytes come from. -/
inductive Origin
  | plus
  | localFile
  | importedRai
deriving DecidableEq, Repr

/-- The origin as it stands in {lit}`sources`. -/
def Origin.text : Origin → PyStr
  | .plus => py "plus"
  | .localFile => py "local"
  | .importedRai => py "imported-rai"

/-- The name under which the bytes are stored. -/
def Origin.fileName : Origin → PyStr
  | .importedRai => py "model.rai"
  | _ => py "model.onnx"

/-- {lit}`ingest_bytes`. -/
def ingestBytes (data : Bytes) (fileName : PyStr) : ThreadProg Unit := do
  let digest := setup.sha256 data
  match ← spread (read fun s => s.disk.sources.lookup (digest, fileName)) with
  | none => spread (exec (.writeSource (digest, fileName) data))
  | some stored =>
      if setup.sha256 stored = digest then return ()
      else
        .raise (.fxdna ⟨exitCacheCorrupt, py "CACHE_CORRUPT", py "content mismatch at " ++
          py "sources/" ++ digest ++ py "/" ++ fileName⟩)

/-- What {lit}`_ingest_source` returns. -/
structure IngestReply where
  ref : PyStr
  sourceSha256 : PyStr
  compileKey : Option PyStr := none
  servingDigest : Option PyStr := none
  jobUuid : Option PyStr := none
  state : PyStr
  cacheHit : Bool := false

/-- The provenance row of a cache hit. -/
def recordHit (ref digest key serving : PyStr) : ThreadProg IngestReply := do
  let uuid ← spread (JobManager.newRow setup
    { ref, compileKey := some key, attempt := 1, sourceSha256 := some digest, hit := true })
  spread (exec (.setJob uuid .prepared none))
  spread (exec (.setRefState ref (py "PREPARED")))
  return { ref, sourceSha256 := digest, compileKey := some key
           servingDigest := some serving, state := py "PREPARED", cacheHit := true }

/-- Submit a compile for an ingested source. -/
def submitCompile (ref digest key serving : PyStr) (origin : Origin) :
    ThreadProg IngestReply := do
  if ← spread (read fun s => diskPreflight s.freeBytes s.totalBytes compileScratchNeedBytes)
  then do
    let extra : JobManager.Extra :=
      { sourceSha256 := some digest, sourcePath := some (digest, origin.fileName) }
    let job ← atomically setup (.submit ref (some key) extra)
      (JobManager.submit setup ref (some key) extra)
    let state := if job.stage.terminalError then job.stage.text else py "QUEUED"
    spread (exec (.setRefState ref state))
    return { ref, sourceSha256 := digest, compileKey := some key
             servingDigest := some serving, jobUuid := some job.uuid
             state := job.stage.text }
  else
    .raise (.fxdna ⟨6, py "RESOURCE_EXCEEDED", py "insufficient scratch"⟩)

/-- What follows in {lit}`_ingest_source` once the compile key is known. -/
def hitOrSubmit (ref digest key serving : PyStr) (origin : Origin) :
    ThreadProg IngestReply := do
  if ← spread (read fun s => (s.registry.getArtifact key).isSome) then
    if ← spread (read fun s => backendOk setup.backendId (s.disk.artifacts.lookup key)) then
      recordHit setup ref digest key serving
    else do
      spread (invalidateArtifact key)
      submitCompile setup ref digest key serving origin
  else
    submitCompile setup ref digest key serving origin

/-- The compile key and the serving digest of an inspected source. -/
def keysOf (digest : PyStr) (inspected : Json) : Except Raised (PyStr × PyStr) :=
  match geometryOf inspected with
  | none =>
      .error (.fxdna ⟨exitUnsupportedContract, py "UNSUPPORTED_CONTRACT",
        py "inspected input geometry missing; refusing to" ++
          py " key compilation on a default shape"⟩)
  | some geometry =>
      match compileKey setup.sha256 digest geometry with
      | .error e => .error (.builtin e)
      | .ok key =>
          match servingDigest setup.sha256 key inspected with
          | .error e => .error (.builtin e)
          | .ok serving => .ok (key, serving)

/-- Whether the bytes of a ref changed without leave. -/
def sourceMoved (old : Option PyStr) (digest : PyStr) (refresh : Bool) : Bool :=
  !(old.getD []).isEmpty && !(old == some digest) && !refresh

/-- {lit}`_ingest_source`. -/
def ingestSource (ref : PyStr) (data : Bytes) (origin : Origin) (inspected : Json)
    (refresh : Bool) : ThreadProg IngestReply := do
  let digest := setup.sha256 data
  if ← spread (read fun s => sourceMoved
      ((s.registry.getRef ref).bind RefRow.sourceSha256) digest refresh) then do
    spread (exec (.setRefState ref (py "SOURCE_CHANGED")))
    .raise (.fxdna ⟨exitInvalidArgs, py "SOURCE_CHANGED",
      py "source bytes changed under " ++ ref ++
        py "; kept previous artifact (use --refresh to accept)"⟩)
  else do
    ingestBytes setup data origin.fileName
    spread (exec (.addSource ⟨digest, origin.fileName, origin.text⟩))
    spread (exec (.setRefSource ref digest (py "DOWNLOADED")))
    if origin = .importedRai then
      return { ref, sourceSha256 := digest, state := py "DOWNLOADED" }
    else
      match keysOf setup digest inspected with
      | .error e => .raise e
      | .ok (key, serving) => hitOrSubmit setup ref digest key serving origin

/-! ## Preparing a ref -/

/-- What the acquisition of a ref's bytes gives {lit}`prepare`. -/
inductive Acquired
  | bytes (data : Bytes) (origin : Origin)
  | fetchFailed (e : FxdnaError)

/-- {lit}`_usable_cached_key`. -/
def usableCachedKey (s : Manager) (ref : PyStr) : Option PyStr :=
  match newestBy JobRow.updatedAt (s.registry.jobs.filter fun j =>
      j.stage == .prepared && j.compileKey.isSome &&
        (j.ref == ref || s.registry.isAlias j.uuid ref)) with
  | none => none
  | some job =>
      let key := job.compileKey.getD []
      if !key.isEmpty && (s.registry.getArtifact key).isSome &&
          backendOk setup.backendId (s.disk.artifacts.lookup key) &&
          ((s.disk.artifacts.lookup key).bind Dir.model).isSome then some key
      else none

/-- {lit}`_inspect_checked`: the summary is recorded of compatible and of refused graphs. -/
def inspectChecked (ref : PyStr) (data : Bytes) : ThreadProg Json :=
  match setup.inspect data with
  | .error (.fxdna e) => do
      spread (exec (.setRefInspection ref (setup.summary data)))
      .raise (.fxdna e)
  | .error e => .raise e
  | .ok contract => do
      spread (exec (.setRefInspection ref (setup.summary data)))
      return contract

/-- {lit}`prepare` of a parsed ref.  Imported artifacts are not inspected. -/
def prepare (ref kind : PyStr) (refresh : Bool) (acquired : Acquired) : ThreadProg Unit := do
  spread (exec (.upsertRef ref kind))
  spread (whenever (setup.models.contains ref)
    (exec (.addPin ⟨py "ref:" ++ ref, py "configured", ref⟩)))
  match acquired with
  | .fetchFailed e =>
      match ← spread (read fun s => usableCachedKey setup s ref) with
      | none => .raise (.fxdna e)
      | some _ => spread (exec (.setRefState ref (py "PREPARED")))
  | .bytes data .importedRai => do
      let _ ← ingestSource setup ref data .importedRai .null refresh
      return ()
  | .bytes data origin => do
      let contract ← inspectChecked setup ref data
      let _ ← ingestSource setup ref data origin contract refresh
      return ()

/-- How a call of {lit}`prepare` starts: the ref is refused, a local file or a descriptor is,
or the bytes are acquired, or a download failed. -/
inductive Acquisition
  | unparsed (e : FxdnaError)
  | refused (e : FxdnaError)
  | acquired (a : Acquired)

/-- {lit}`prepare`. -/
def prepareCall (ref kind : PyStr) (refresh : Bool) : Acquisition → ThreadProg Unit
  | .unparsed e => .raise (.fxdna e)
  | .refused e => do
      spread (exec (.upsertRef ref kind))
      spread (whenever (setup.models.contains ref)
        (exec (.addPin ⟨py "ref:" ++ ref, py "configured", ref⟩)))
      .raise (.fxdna e)
  | .acquired a => prepare setup ref kind refresh a

/-- What a configured model is found to be: its parsed ref and kind, and how its
preparation starts. -/
structure Found where
  ref : PyStr
  kind : PyStr
  acquisition : Acquisition

/-- {lit}`reconcile_configured` on one model: local sources are refreshed, and a failure is
only reported. -/
def reconcileOne (found : Found) : ThreadProg Unit := do
  let refresh := found.kind == py "local" || found.kind == py "onnx"
  match ← (prepareCall setup found.ref found.kind refresh found.acquisition).attempt with
  | .error (.fxdna _) => return ()
  | .error e => .raise e
  | .ok _ => return ()

/-- {lit}`reconcile_configured`. -/
def reconcileConfigured (found : PyStr → Found) : ThreadProg Unit :=
  Program.forEach setup.models fun model => reconcileOne setup (found model)

/-- {lit}`ingest_zmq_bytes`, with the inspection its caller ran on the bytes. -/
def ingestZmqBytes (data : Bytes) : ThreadProg Unit :=
  match setup.inspect data with
  | .error e => .raise e
  | .ok contract => do
      let ref := py "zmq-upload:" ++ setup.sha256 data
      spread (exec (.upsertRef ref (py "onnx")))
      spread (exec (.setRefInspection ref (setup.summary data)))
      let _ ← ingestSource setup ref data .localFile contract false
      return ()

/-! ## Advancing jobs -/

/-- A publication or a pump that raised: the row fails with a record. -/
def failJob (uuid : PyStr) (e : FxdnaError) : Prog Unit := do
  exec (.setJob uuid .compileFailed (some e.errorCode))
  let _ ← JobManager.recordTerminal uuid .compileFailed (some e.errorCode) e.message []
  markJobRefs uuid .compileFailed

/-- A {lit}`PREPARED` job in {lit}`pump`. -/
def pumpPrepared (uuid : PyStr) (job : JobRow) : Prog Unit := do
  let key := job.compileKey.getD []
  if key.isEmpty then
    exec (.setRefState job.ref (py "PREPARED"))
  else
    match ← (publishResult setup job).attempt with
    | .error (.fxdna e) => failJob uuid e
    | .error e => .raise e
    | .ok _ => markPreparedRefs key

/-- One job in {lit}`pump`. -/
def pumpOne (uuid : PyStr) (dt : Int) : Prog Unit := do
  match ← (JobManager.pump setup uuid dt).attempt with
  | .error (.fxdna e) => failJob uuid e
  | .error e => .raise e
  | .ok job =>
      if job.stage.terminalError then markJobRefs uuid job.stage
      else if job.stage == .prepared then pumpPrepared setup uuid job
      else return ()

/-- {lit}`retry_due`. -/
def retryDue : ThreadProg Unit := do
  let rows ← spread (read fun s => s.registry.jobs.filter fun j =>
    j.stage.terminalError && j.failure.isSome)
  Program.forEach rows fun row => do
    let _ ← atomically setup (.resume row.uuid row.ref row.compileKey)
      (JobManager.resumeRow setup row.uuid row.ref row.compileKey)
    return ()

/-- {lit}`Supervisor.pump`. -/
def pump (dt : Int) : ThreadProg Unit := do
  retryDue setup
  let rows ← spread (read fun s => s.registry.jobs.filter fun j => !j.stage.terminal)
  Program.forEach rows fun row => spread (pumpOne setup row.uuid dt)

/-- A {lit}`PREPARED` job in {lit}`wait_job`: a failed publication fails the row. -/
def waitPrepared (uuid : PyStr) (pumping : Bool) (job : JobRow) : Prog Unit := do
  let key := job.compileKey.getD []
  if key.isEmpty then
    exec (.setRefState job.ref (py "PREPARED"))
  else if pumping then
    match ← (publishResult setup job).attempt with
    | .error (.fxdna e) => do
        exec (.setJob uuid .compileFailed (some e.errorCode))
        markJobRefs uuid .compileFailed
    | .error e => .raise e
    | .ok _ => markPreparedRefs key
  else
    markPreparedRefs key

/-- The job as {lit}`wait_job` sees it. -/
def waitedJob (uuid : PyStr) (dt : Int) (pumping : Bool) : Prog JobRow :=
  if pumping then JobManager.pump setup uuid dt
  else do
    match ← read fun s => s.registry.getJob uuid with
    | none => .raise (.fxdna ⟨exitNotReady, py "UNKNOWN_JOB", py "no such job " ++ uuid⟩)
    | some job => return job

/-- One round of the loop of {lit}`wait_job`. -/
def waitStep (uuid : PyStr) (dt : Int) (pumping : Bool) : Prog Unit := do
  let job ← waitedJob setup uuid dt pumping
  let uuid := if pumping then job.uuid else uuid
  if job.stage == .prepared then waitPrepared setup uuid pumping job
  else if job.stage.terminalError then markJobRefs uuid job.stage
  else return ()

/-- The part of {lit}`recover_ref` that opens a new attempt. -/
def requeueRef (ref : PyStr) : ThreadProg Unit := do
  match ← spread (read fun s => s.registry.terminalRowForRef ref) with
  | none => return ()
  | some row => do
      let _ ← atomically setup (.requeue ref row.compileKey)
        (JobManager.requeue setup ref row.compileKey)
      return ()

/-! ## Starting the manager process -/

/-- The entries of a directory in the order of {lit}`sorted(os.listdir(...))`. -/
def sortedNames (names : List PyStr) : List PyStr :=
  names.insertionSort (· ≤ ·)

/-- {lit}`recover` on one work directory. -/
def recoverWork (uuid : PyStr) : Prog Unit := do
  match ← read fun s => s.registry.getJob uuid with
  | none => exec (.dropWork uuid)
  | some job =>
      if job.stage.terminal then return ()
      else do
        exec (.setJob uuid .interrupted (some (py "INTERRUPTED")))
        let ref ← read fun s => ((s.registry.getJob uuid).map JobRow.ref).getD []
        whenever (!ref.isEmpty) (exec (.setRefState ref (py "INTERRUPTED")))
        exec (.dropWork uuid)

/-- {lit}`recover` on one artifact directory. -/
def recoverArtifact (key : PyStr) : Prog Unit := do
  if ← read fun s => (s.registry.getArtifact key).isSome then
    return ()
  else
    match ← read fun s => adopted? setup.sha256 key ((s.disk.artifacts.lookup key).getD {}) with
    | .error e => .raise (.builtin e)
    | .ok (some row) => exec (.addArtifact row)
    | .ok none => exec (.moveArtifact key false)

/-- {lit}`recover`.  A staging directory has no job row. -/
def recover : Prog Unit := do
  let work ← read fun s => s.disk.work
  Program.forEach (sortedNames work) recoverWork
  let staged ← read fun s => s.disk.staged.keys
  Program.forEach (sortedNames staged) fun uuid => exec (.dropStaged uuid)
  let keys ← read fun s => s.disk.artifacts.keys
  Program.forEach (sortedNames keys) (recoverArtifact setup)

/-- {lit}`attempt or 1`. -/
def attemptOr1 (attempt : Int) : Int :=
  if attempt = 0 then 1 else attempt

/-- {lit}`_interrupt_record`. -/
def interruptRecord (rowBoot : Option PyStr) (attempt : Int) (s : Manager) : Failure :=
  let base := newRecord s.memlockAdequate .interrupted (some (py "INTERRUPTED")) []
    (attemptOr1 attempt) s.now [] []
  if s.registry.state.inhibition.isSome || s.bootToken == py "unknown" ||
      (rowBoot.getD []).isEmpty || !(rowBoot == some s.bootToken) then
    { base with kind := some .unknown, retryable := some true }
  else base

/-- {lit}`_reconcile_jobs` on one live row. -/
def interruptRow (row : JobRow) : Prog Unit := do
  if ← read fun s => (s.registry.getJob row.uuid).isNone then
    return ()
  else do
    exec (.setJob row.uuid .interrupted (some (py "INTERRUPTED")))
    exec (.setRefState row.ref (py "INTERRUPTED"))
    let record ← read (interruptRecord row.bootToken row.attempt)
    exec (.setFailure row.uuid record)

/-- {lit}`_reconcile_jobs` on one interrupted row without a record. -/
def recordRow (row : JobRow) : Prog Unit := do
  exec (.setRefState row.ref (py "INTERRUPTED"))
  let record ← read (interruptRecord row.bootToken row.attempt)
  exec (.setFailure row.uuid record)

/-- {lit}`_reconcile_jobs`. -/
def reconcileJobs : Prog Unit := do
  let live ← read fun s => s.registry.jobs.filter fun j => !j.stage.terminal
  Program.forEach live interruptRow
  let bare ← read fun s => s.registry.jobs.filter fun j =>
    j.stage == .interrupted && j.failure.isNone
  Program.forEach bare recordRow

/-- What the constructor of the supervisor does to the data dir. -/
def construct : Prog Unit := do
  recover setup
  reconcileJobs

/-! ## What a repair changes -/

/-- The statements of a repair other than those about artifacts: interruptions, records, ref
states and work directories. -/
def Stmt.ofRepair : Stmt → Bool
  | .query | .setJob _ .interrupted _ | .setFailure _ _ | .setRefState _ _ | .dropWork _ => true
  | _ => false

/-- A program of such statements. -/
abbrev RepairsRows {β : Type} (p : Prog β) : Prop :=
  p.Only fun a => a.ofRepair = true

theorem repairsRows_read {β : Type} (f : Manager → β) : RepairsRows (read f) :=
  ⟨rfl, fun _ => trivial⟩

theorem repairsRows_exec {a : Stmt} (h : a.ofRepair = true) : RepairsRows (exec a) :=
  ⟨h, fun _ => trivial⟩

theorem repairsRows_recoverWork (uuid : PyStr) : RepairsRows (recoverWork uuid) := by
  refine Program.Only.bind (repairsRows_read _) fun found => ?_
  cases found with
  | none => exact repairsRows_exec rfl
  | some job =>
      dsimp only
      split
      · trivial
      · refine Program.Only.bind (repairsRows_exec rfl) fun _ => ?_
        refine Program.Only.bind (repairsRows_read _) fun ref => ?_
        refine Program.Only.bind ?_ fun _ => repairsRows_exec rfl
        unfold whenever
        split
        · exact repairsRows_exec rfl
        · trivial

theorem repairsRows_interruptRow (row : JobRow) : RepairsRows (interruptRow row) := by
  refine Program.Only.bind (repairsRows_read _) fun gone => ?_
  split
  · trivial
  · refine Program.Only.bind (repairsRows_exec rfl) fun _ => ?_
    refine Program.Only.bind (repairsRows_exec rfl) fun _ => ?_
    exact Program.Only.bind (repairsRows_read _) fun record => repairsRows_exec rfl

theorem repairsRows_recordRow (row : JobRow) : RepairsRows (recordRow row) := by
  refine Program.Only.bind (repairsRows_exec rfl) fun _ => ?_
  exact Program.Only.bind (repairsRows_read _) fun record => repairsRows_exec rfl

theorem repairsRows_reconcileJobs : RepairsRows reconcileJobs := by
  refine Program.Only.bind (repairsRows_read _) fun live => ?_
  refine Program.Only.bind
    (Program.Only.forEach fun row _ => repairsRows_interruptRow row) fun _ => ?_
  refine Program.Only.bind (repairsRows_read _) fun bare => ?_
  exact Program.Only.forEach fun row _ => repairsRows_recordRow row

end FrigateXdna
