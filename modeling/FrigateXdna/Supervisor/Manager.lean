import FrigateXdna.Compiler.Backend
import FrigateXdna.Library.Program

/-!
# The state of the manager process

What the threads that prepare models share: the registry, the data dir and the backend
objects, with the clock, the resource limits and the boot token they read.  Their atomic
actions are single registry statements, single file operations, and single operations on
a backend object.

Ghost data: the rows that were ever created, the artifacts the compiler produced with the
bytes it read, and the {lit}`PREPARED` rows whose artifact was invalidated since.

Main results:

- Definition {lit}`Stmt.exec`: what an action does.
- Definition {lit}`Outside.happen`: what happens outside these threads.
-/

namespace FrigateXdna

open Python Library

/-! ## Setup -/

/-- {lit}`fake_compile`: the script of the fake backend. -/
structure FakeCompile where
  duration : Int := 0
  succeed : Bool := true
  failState : Stage := .compileFailed
  deviceRequired : Bool := false
  deviceHeldByWorker : Option Bool := none
  detail : PyStr := []

/-- How a manager process is set up: the digest function, whose digests are never empty,
the graph inspection that a source passes before it is ingested and the text of its summary,
the supply of job ids, which never repeats, whether compiler prefixes are configured, the
backend id, and the configured models. -/
structure Setup where
  sha256 : Bytes → PyStr
  sha256_ne_nil : ∀ data, sha256 data ≠ []
  inspect : Bytes → Except Raised Json
  summary : Bytes → PyStr
  uuid4 : Nat → PyStr
  uuid4_injective : Function.Injective uuid4
  real : Bool
  backendId : PyStr
  models : List PyStr := []
  fakeCompile : FakeCompile := {}

/-! ## State -/

/-- A row that was created: its id, its key and its source. -/
structure Issued where
  uuid : PyStr
  compileKey : Option PyStr
  sourceSha256 : Option PyStr
deriving DecidableEq, Repr

/-- An artifact the compiler produced: for which key, the digest of its bytes, and the
source bytes that were read. -/
structure Production where
  compileKey : PyStr
  artifactSha256 : PyStr
  read : Bytes
deriving DecidableEq, Repr

/-- The manager process and its data dir. -/
structure Manager where
  registry : Registry := {}
  disk : Disk := {}
  backends : AList fun _ : PyStr => Backend := ∅
  now : Int := 0
  memlockAdequate : Bool := true
  bootToken : PyStr := []
  freeBytes : Nat := 0
  totalBytes : Nat := 0
  minted : Nat := 0
  issued : List Issued := []
  productions : List Production := []
  excused : List PyStr := []

namespace Manager

/-- Whether the artifact of a key is committed: it has a row and a directory. -/
def committed (s : Manager) (key : PyStr) : Bool :=
  (s.registry.getArtifact key).isSome && s.disk.hasArtifact key

/-- Whether an artifact of the current backend is committed for a key. -/
def usable (setup : Setup) (s : Manager) (key : PyStr) : Bool :=
  (s.registry.getArtifact key).isSome &&
    backendOk setup.backendId (s.disk.artifacts.lookup key)

/-- The ids of the {lit}`PREPARED` rows of a key. -/
def preparedUuids (s : Manager) (key : PyStr) : List PyStr :=
  (s.registry.jobs.filter fun j =>
    j.compileKey == some key && j.stage == .prepared).map JobRow.uuid

/-- Whether the row of a job stands in {lit}`PREPARED`. -/
def isPrepared (s : Manager) (uuid : PyStr) : Bool :=
  s.registry.jobs.any fun j => j.uuid == uuid && j.stage == .prepared

end Manager

/-! ## Actions -/

/-- A new row of {lit}`jobs`: an attempt, or the record of a cache hit. -/
structure NewJob where
  ref : PyStr
  compileKey : Option PyStr
  attempt : Int
  sourceSha256 : Option PyStr
  hit : Bool := false

/-- The atomic actions. -/
inductive Stmt
  | query
  | createJob (row : NewJob)
  | setJob (uuid : PyStr) (stage : Stage) (errorCode : Option PyStr)
  | setFailure (uuid : PyStr) (record : Failure)
  | deleteJob (uuid : PyStr)
  | addAlias (uuid ref : PyStr)
  | upsertRef (ref kind : PyStr)
  | setRefState (ref state : PyStr)
  | setRefSource (ref sourceSha256 state : PyStr)
  | setRefInspection (ref summary : PyStr)
  | addSource (row : SourceRow)
  | addPin (pin : Pin)
  | addArtifact (row : ArtifactRow)
  | deleteArtifact (key : PyStr)
  | putBackend (uuid : PyStr) (backend : Backend)
  | poll (uuid : PyStr) (dt : Int)
  | writeSource (path : SourcePath) (data : Bytes)
  | moveArtifact (key : PyStr) (invalidated : Bool)
  | makeStaged (uuid : PyStr)
  | stageModel (uuid : PyStr) (data : Bytes)
  | stageManifest (uuid : PyStr) (manifest : Json)
  | commitStaged (uuid key : PyStr)
  | dropStaged (uuid : PyStr)
  | dropWork (uuid : PyStr)

/-- A program of the manager process. -/
abbrev Prog (β : Type) :=
  Program Manager Stmt Raised β

/-- What an action does. -/
def Stmt.exec (setup : Setup) (a : Stmt) (s : Manager) : Manager :=
  match a with
  | .query => s
  | .createJob row =>
      { s with
        registry := s.registry.createJob (setup.uuid4 s.minted) row.ref row.compileKey
          (some s.bootToken) row.attempt row.sourceSha256 s.now
        minted := s.minted + 1
        issued := s.issued ++ [⟨setup.uuid4 s.minted, row.compileKey, row.sourceSha256⟩] }
  | .setJob uuid stage errorCode =>
      { s with
        registry := s.registry.setJob uuid stage errorCode none s.now
        excused :=
          if stage == .prepared && s.isPrepared uuid then s.excused
          else s.excused.filter fun x => !(x == uuid) }
  | .setFailure uuid record =>
      { s with registry := s.registry.setFailure uuid record s.now }
  | .deleteJob uuid => { s with registry := s.registry.deleteJob uuid }
  | .addAlias uuid ref => { s with registry := s.registry.addAlias uuid ref }
  | .upsertRef ref kind => { s with registry := s.registry.upsertRef ref kind }
  | .setRefState ref state => { s with registry := s.registry.setRefState ref state }
  | .setRefSource ref sourceSha256 state =>
      { s with registry := s.registry.setRefSource ref sourceSha256 state }
  | .setRefInspection ref summary =>
      { s with registry := s.registry.setRefInspection ref summary }
  | .addSource row => { s with registry := s.registry.addSource row }
  | .addPin pin => { s with registry := s.registry.addPin pin }
  | .addArtifact row => { s with registry := s.registry.addArtifact row }
  | .deleteArtifact key =>
      { s with
        registry := s.registry.deleteArtifact key
        excused := s.excused ++ s.preparedUuids key }
  | .putBackend uuid backend => { s with backends := s.backends.insert uuid backend }
  | .poll uuid dt =>
      match s.backends.lookup uuid with
      | none => s
      | some b => { s with backends := s.backends.insert uuid (b.poll dt) }
  | .writeSource path data => { s with disk := s.disk.writeSource path data }
  | .moveArtifact key invalidated =>
      { s with
        disk := s.disk.moveArtifact key
        excused := if invalidated then s.excused ++ s.preparedUuids key else s.excused }
  | .makeStaged uuid => { s with disk := s.disk.makeStaged uuid }
  | .stageModel uuid data => { s with disk := s.disk.stageModel uuid data }
  | .stageManifest uuid manifest => { s with disk := s.disk.stageManifest uuid manifest }
  | .commitStaged uuid key => { s with disk := s.disk.commitStaged uuid key }
  | .dropStaged uuid => { s with disk := s.disk.dropStaged uuid }
  | .dropWork uuid => { s with disk := s.disk.dropWork uuid }

/-- Perform an action for its effect. -/
def exec (a : Stmt) : Prog Unit :=
  .act a fun _ => .ret ()

/-- Read from the shared state. -/
def read {β : Type} (f : Manager → β) : Prog β :=
  .act .query fun s => .ret (f s)

/-- A conditional action. -/
def whenever (c : Bool) (p : Prog Unit) : Prog Unit :=
  if c then p else .ret ()

/-! ## Outside events -/

/-- What happens outside the threads that prepare models: the clock, the resource limits,
the worker half of the daemon, and the compile threads. -/
inductive Outside
  | clock (now : Int)
  | memlock (adequate : Bool)
  | space (free total : Nat)
  | service (state : ServiceState)
  | makeWork (uuid : PyStr)
  | compiled (uuid : PyStr) (outcome : Option CompileResult)

/-- The productions of an outcome of the compiler. -/
def producedBy (setup : Setup) (key : PyStr) (outcome : Option CompileResult)
    (source : Option Bytes) : List Production :=
  match outcome.bind CompileResult.rai, source with
  | some (some rai), some data => [⟨key, setup.sha256 rai, data⟩]
  | _, _ => []

/-- What an outside event does.  A running compile makes its work directory, reads the
stored file of its source, and only succeeds if it is there. -/
def Outside.happen (setup : Setup) (e : Outside) (s : Manager) : Option Manager :=
  match e with
  | .clock now => some { s with now }
  | .memlock adequate => some { s with memlockAdequate := adequate }
  | .space free total => some { s with freeBytes := free, totalBytes := total }
  | .service state => some { s with registry := { s.registry with state } }
  | .makeWork uuid =>
      match s.backends.lookup uuid with
      | some (.real j) =>
          if j.thread == .running then some { s with disk := s.disk.makeWork uuid } else none
      | _ => none
  | .compiled uuid outcome =>
      match s.backends.lookup uuid with
      | some (.real j) =>
          let source := s.disk.sources.lookup j.source
          if j.thread == .running && (source.isSome || outcome.all fun r => r.rai.isNone) then
            some { s with
              backends := s.backends.insert uuid
                (.real (j.finish (outcome.map fun r => { r with read := source })))
              productions := s.productions ++
                producedBy setup j.compileKey outcome source }
          else none
      | _ => none

/-- Outside events change no rows but the service state, and no artifacts. -/
theorem Outside.happen_kept {setup : Setup} {e : Outside} {s s' : Manager}
    (h : e.happen setup s = some s') :
    (∃ state, s'.registry = { s.registry with state }) ∧
      s'.disk.artifacts = s.disk.artifacts ∧ s'.disk.staged = s.disk.staged ∧
      s'.disk.sources = s.disk.sources ∧ s'.minted = s.minted ∧ s'.issued = s.issued ∧
      s'.excused = s.excused := by
  cases e with
  | makeWork uuid =>
      simp only [Outside.happen] at h
      split at h
      · split at h
        · obtain rfl := Option.some.inj h
          refine ⟨⟨_, rfl⟩, ?_⟩
          unfold Disk.makeWork
          split <;> exact ⟨rfl, rfl, rfl, rfl, rfl, rfl⟩
        · contradiction
      · contradiction
  | compiled uuid outcome =>
      simp only [Outside.happen] at h
      split at h
      · split at h
        · obtain rfl := Option.some.inj h
          exact ⟨⟨_, rfl⟩, rfl, rfl, rfl, rfl, rfl, rfl⟩
        · contradiction
      · contradiction
  | _ =>
      obtain rfl := Option.some.inj h
      exact ⟨⟨_, rfl⟩, rfl, rfl, rfl, rfl, rfl, rfl⟩

end FrigateXdna
