import FrigateXdna.Cache.Store

/-!
# Compiler backends

The job manager drives a backend with {lit}`poll`.  The fake one advances by the time it
is given; the real one starts a thread and reports what the thread left behind.  The
result of a thread carries, as ghost data, the source bytes it compiled.

Main results:

- Definition {lit}`Backend.poll`: one poll of a backend.
- Theorem {lit}`Backend.poll_content`: a poll never changes what a backend compiles.
-/

namespace FrigateXdna

open Python

/-! ## The fake backend -/

/-- {lit}`FakeCompileJob`. -/
structure FakeCompileJob where
  sourceSha256 : PyStr
  compileKey : PyStr
  duration : Int := 0
  succeed : Bool := true
  failState : Stage := .compileFailed
  deviceRequired : Bool := true
  deviceHeldByWorker : Bool := true
  elapsed : Int := 0
  state : Stage := .queued
  detail : PyStr := []
deriving Repr

/-- {lit}`FakeCompileJob.poll`. -/
def FakeCompileJob.poll (dt : Int) (j : FakeCompileJob) : FakeCompileJob :=
  if j.state.terminal then j
  else if j.deviceRequired && j.deviceHeldByWorker then
    { j with state := .waitingForDevice }
  else if j.elapsed + dt ≥ j.duration then
    { j with
      elapsed := j.elapsed + dt
      state := if j.succeed then .prepared else j.failState }
  else
    { j with elapsed := j.elapsed + dt, state := .compiling }

/-- A poll changes the state and the elapsed time only. -/
theorem FakeCompileJob.poll_kept (dt : Int) (j : FakeCompileJob) :
    (j.poll dt).sourceSha256 = j.sourceSha256 ∧ (j.poll dt).compileKey = j.compileKey := by
  unfold FakeCompileJob.poll
  split
  · exact ⟨rfl, rfl⟩
  · split
    · exact ⟨rfl, rfl⟩
    · split <;> exact ⟨rfl, rfl⟩

/-! ## The real backend -/

/-- {lit}`CompileResult`, as far as it is read: {lit}`rai` is the content of the file at
{lit}`rai_path`, if there is a path and if it can be read; {lit}`read` is ghost data, the
source bytes the compile read. -/
structure CompileResult where
  returncode : Int
  error : PyStr := []
  detail : PyStr := []
  rai : Option (Option Bytes) := none
  read : Option Bytes := none
deriving Repr

/-- The thread of a real compile. -/
inductive CompileThread
  | notStarted
  | running
  | finished
deriving DecidableEq, Repr

/-- {lit}`RealCompileJob`; {lit}`source` is the stored file it compiles. -/
structure RealCompileJob where
  sourceSha256 : PyStr
  compileKey : PyStr
  source : SourcePath
  state : Stage := .queued
  thread : CompileThread := .notStarted
  result : Option CompileResult := none
deriving Repr

/-- The states in which a real backend does not change any more. -/
def RealCompileJob.done (j : RealCompileJob) : Bool :=
  [Stage.prepared, .compileFailed, .resourceExceeded, .validationFailed,
    .interrupted].contains j.state

/-- {lit}`RealCompileJob.poll`. -/
def RealCompileJob.poll (j : RealCompileJob) : RealCompileJob :=
  if j.done then j
  else
    match j.thread with
    | .notStarted => { j with thread := .running, state := .compiling }
    | .running => { j with state := .compiling }
    | .finished =>
        match j.result with
        | none => { j with state := .compileFailed }
        | some r =>
            if r.returncode = 124 then { j with state := .compileFailed }
            else if r.returncode = 98 then
              { j with state := .queued, thread := .notStarted }
            else if r.returncode ≠ 0 then { j with state := .compileFailed }
            else { j with state := .prepared }

/-- A poll changes the state and the thread only. -/
theorem RealCompileJob.poll_kept (j : RealCompileJob) :
    j.poll.sourceSha256 = j.sourceSha256 ∧ j.poll.compileKey = j.compileKey ∧
      j.poll.source = j.source ∧ j.poll.result = j.result := by
  unfold RealCompileJob.poll
  split
  · exact ⟨rfl, rfl, rfl, rfl⟩
  · split
    · exact ⟨rfl, rfl, rfl, rfl⟩
    · exact ⟨rfl, rfl, rfl, rfl⟩
    · split
      · exact ⟨rfl, rfl, rfl, rfl⟩
      · split
        · exact ⟨rfl, rfl, rfl, rfl⟩
        · split
          · exact ⟨rfl, rfl, rfl, rfl⟩
          · split <;> exact ⟨rfl, rfl, rfl, rfl⟩

/-- The thread of a real compile ends; a thread that dies leaves the old result. -/
def RealCompileJob.finish (outcome : Option CompileResult) (j : RealCompileJob) :
    RealCompileJob :=
  { j with thread := .finished, result := outcome.or j.result }

/-! ## Either -/

/-- A backend object. -/
inductive Backend
  | fake (j : FakeCompileJob)
  | real (j : RealCompileJob)
deriving Repr

namespace Backend

/-- {lit}`backend.poll`. -/
def poll (dt : Int) : Backend → Backend
  | fake j => fake (j.poll dt)
  | real j => real j.poll

/-- {lit}`backend.state`. -/
def state : Backend → Stage
  | fake j => j.state
  | real j => j.state

/-- {lit}`BACKEND_ID`. -/
def backendId : Backend → PyStr
  | fake _ => py "fake-v0"
  | real _ => py "bf16-vaiml-v1"

/-- The digest of the source it compiles. -/
def sourceSha256 : Backend → PyStr
  | fake j => j.sourceSha256
  | real j => j.sourceSha256

/-- The compile key it compiles for. -/
def compileKey : Backend → PyStr
  | fake j => j.compileKey
  | real j => j.compileKey

/-- The vendor tail and the error text of a terminal outcome, as
{lit}`_finish_terminal` reads them. -/
def evidence : Backend → PyStr × PyStr
  | fake j => (j.detail, [])
  | real j =>
      match j.result with
      | none => ([], [])
      | some r => (r.detail, r.error)

/-- What a backend compiles: the digest, the key, and the file. -/
def content : Backend → PyStr × PyStr × Option SourcePath
  | fake j => (j.sourceSha256, j.compileKey, none)
  | real j => (j.sourceSha256, j.compileKey, some j.source)

/-- A poll never changes what a backend compiles. -/
theorem poll_content (dt : Int) (b : Backend) : (b.poll dt).content = b.content := by
  cases b with
  | fake j =>
      obtain ⟨hsource, hkey⟩ := j.poll_kept dt
      simp [poll, content, hsource, hkey]
  | real j =>
      obtain ⟨hsource, hkey, hpath, -⟩ := j.poll_kept
      simp [poll, content, hsource, hkey, hpath]

end Backend
end FrigateXdna
