import FrigateXdna.Cache.Registry
import FrigateXdna.Python.Json

/-!
# The projected state of a model

{lit}`project_ref` is the one account of a ref that status, waits and the console share: the
stored state overlaid with what serves, the newest job, its failure record and the last
inspection.  The read-only registry yields the failure and inspection columns as JSON.

Main results:

- Definition {lit}`projectRef`: the view of a ref.
- Theorem {lit}`rankedState_active_iff`: when a ref counts as {lit}`ACTIVE`.
- Theorem {lit}`StatusStore.latestJob_mem`: the job a view shows is one of the ref's.
-/

namespace FrigateXdna

open Python

/-! ## What the read-only registry yields -/

/-- A row of {lit}`model_refs`. -/
structure StatusRef where
  ref : PyStr
  state : PyStr
  sourceSha256 : Option PyStr
  inspection : Option Json

/-- A row of {lit}`jobs`; the failure record is a dictionary or absent. -/
structure StatusJob where
  uuid : PyStr
  ref : PyStr
  compileKey : Option PyStr
  stage : Stage
  attempt : Int
  updatedAt : Int
  progress : Option PyStr
  errorCode : Option PyStr
  failure : Option (List (PyStr × Json))

/-- The tables that a status reads; {lit}`verified` are the compile keys with a passed
check. -/
structure StatusStore where
  refs : List StatusRef := []
  jobs : List StatusJob := []
  aliases : List (PyStr × PyStr) := []
  artifacts : List ArtifactRow := []
  verified : List PyStr := []
  inhibition : Option Json := none

namespace StatusStore

/-- {lit}`get_ref`. -/
def getRef (s : StatusStore) (ref : PyStr) : Option StatusRef :=
  s.refs.find? fun m => m.ref == ref

/-- The rows of a ref, its own and those it is an alias of. -/
def jobsOf (s : StatusStore) (ref : PyStr) : List StatusJob :=
  s.jobs.filter fun j => j.ref == ref || s.aliases.any fun a => a.1 == j.uuid && a.2 == ref

/-- {lit}`latest_job_for_ref`: a live row comes before the terminal ones. -/
def latestJob (s : StatusStore) (ref : PyStr) : Option StatusJob :=
  (newestBy StatusJob.updatedAt ((s.jobsOf ref).filter fun j => !j.stage.terminal)).or
    (newestBy StatusJob.updatedAt ((s.jobsOf ref).filter fun j => j.stage.terminal))

/-- {lit}`prepared_key_for_ref`. -/
def preparedKeyForRef (s : StatusStore) (ref : PyStr) : Option PyStr :=
  (newestBy StatusJob.updatedAt
    ((s.jobsOf ref).filter fun j => j.stage == .prepared && j.compileKey.isSome)).bind
    StatusJob.compileKey

/-- {lit}`get_artifact`. -/
def getArtifact (s : StatusStore) (compileKey : PyStr) : Option ArtifactRow :=
  s.artifacts.find? fun a => a.compileKey == compileKey

/-- The job a view shows is one of the ref's. -/
theorem latestJob_mem {s : StatusStore} {ref : PyStr} {j : StatusJob}
    (h : s.latestJob ref = some j) : j ∈ s.jobsOf ref := by
  rcases Option.or_eq_some_iff.mp h with hlive | ⟨-, hterminal⟩
  · exact List.mem_of_mem_filter (newestBy_mem hlive)
  · exact List.mem_of_mem_filter (newestBy_mem hterminal)

end StatusStore

/-! ## Progress texts -/

/-- Whether a character matches {lit}`\d`. -/
def isDecimal (c : Nat) : Bool :=
  (decimalDigit? c).isSome

/-- The number that decimal digits spell. -/
def decimalValue (digits : PyStr) : Nat :=
  digits.foldl (fun value c => 10 * value + (decimalDigit? c).getD 0) 0

/-- A match of {lit}`(\d+(?:\.\d+)?)s` at the head of a text, as a float. -/
def secondsHere (s : PyStr) : Option PyFloat :=
  let whole := s.takeWhile isDecimal
  if whole.isEmpty then none
  else
    match s.dropWhile isDecimal with
    | 115 :: _ => some (.ofDecimal false (decimalValue whole) 0)
    | 46 :: rest =>
        let fraction := rest.takeWhile isDecimal
        if fraction.isEmpty then none
        else
          match rest.dropWhile isDecimal with
          | 115 :: _ =>
              some (.ofDecimal false (decimalValue (whole ++ fraction)) (-fraction.length))
          | _ => none
    | _ => none

/-- {lit}`_ELAPSED_RE.search`. -/
def searchElapsed : PyStr → Option PyFloat
  | [] => none
  | c :: rest =>
      let here :=
        if startsWith (py "elapsed=") (c :: rest) then secondsHere ((c :: rest).drop 8)
        else none
      here.or (searchElapsed rest)

/-- {lit}`_PHASE_RE.search`. -/
def searchPhase : PyStr → Option PyStr
  | [] => none
  | c :: rest =>
      let here :=
        if startsWith (py "phase=") (c :: rest) then
          ((c :: rest).drop 6).takeWhile fun d => decide (65 ≤ d ∧ d ≤ 90) || d == 95
        else []
      if here.isEmpty then searchPhase rest else some here

/-! ## The view of a ref -/

/-- {lit}`_ranked_state`. -/
def rankedState (stored : PyStr) (verified : Bool)
    (liveKey key keySource refSource : Option PyStr) : PyStr :=
  if (liveKey.getD []) ≠ [] ∧ key = liveKey then
    if (keySource.getD []) = [] ∨ (refSource.getD []) = [] ∨ keySource ≠ refSource then stored
    else py "ACTIVE"
  else if stored = py "PREPARED" ∧ verified = true then py "VERIFIED"
  else stored

/-- **A ref counts as active** when the worker serves its newest prepared key and the
artifact was compiled from its current source; no stored state says so. -/
theorem rankedState_active_iff {stored : PyStr} (hstored : stored ≠ py "ACTIVE")
    {verified : Bool} {liveKey key keySource refSource : Option PyStr} :
    rankedState stored verified liveKey key keySource refSource = py "ACTIVE" ↔
      (liveKey.getD []) ≠ [] ∧ key = liveKey ∧ (keySource.getD []) ≠ [] ∧
        keySource = refSource := by
  have hverified : py "VERIFIED" ≠ py "ACTIVE" := by decide
  unfold rankedState
  by_cases hlive : (liveKey.getD []) ≠ [] ∧ key = liveKey
  · rw [if_pos hlive]
    by_cases hsource : keySource = refSource
    · subst hsource
      by_cases hempty : (keySource.getD []) = []
      · simp [hempty, hstored]
      · simp [hempty, hlive.1, hlive.2]
    · simp [hsource, hstored]
  · rw [if_neg hlive]
    have hnot : ¬ ((liveKey.getD []) ≠ [] ∧ key = liveKey ∧ (keySource.getD []) ≠ [] ∧
        keySource = refSource) := fun h => hlive ⟨h.1, h.2.1⟩
    split
    · exact iff_of_false hverified hnot
    · exact iff_of_false hstored hnot

/-- {lit}`_LEGACY_NO_RETRY`. -/
def legacyNoRetry : Stage → Bool
  | .quarantined | .validationFailed | .unsupportedContract => true
  | _ => false

/-- The keys of a failure record that a view shows. -/
def shownKeys : List PyStr :=
  [py "phase", py "code", py "reason", py "kind", py "guidance"]

/-- {lit}`_failure_view`: what is shown of the failure of a job, and whether it may be
retried. -/
def failureView (failure : Option (List (PyStr × Json))) (stage : Option Stage) :
    Option Json × Bool :=
  match failure with
  | none => (none, stage.any fun s => s.terminalError && !legacyNoRetry s)
  | some fields =>
      if (lookupField (py "phase") fields).isNone then (none, false)
      else
        (some (.obj
          ((shownKeys.map fun k => (k, (lookupField k fields).getD .null)) ++
            [(py "attempts", (lookupField (py "attempts") fields).getD (.int 0))])),
          ((lookupField (py "retryable") fields).getD .null).truthy)

/-- What {lit}`project_ref` returns. -/
structure ModelView where
  ref : PyStr
  sourceSha256 : PyStr
  state : PyStr
  phase : Option PyStr
  elapsed : Option PyFloat
  verified : Bool
  errorCode : Option PyStr
  compileKey : Option PyStr
  attempts : Int
  retryable : Bool
  failure : Option Json
  inspection : Option Json
deriving DecidableEq

/-- {lit}`project_ref`. -/
def projectRef (s : StatusStore) (ref : PyStr) (liveKey : Option PyStr) : ModelView :=
  let rec_ := s.getRef ref
  let stored := (rec_.map StatusRef.state).getD []
  let source := rec_.bind StatusRef.sourceSha256
  let job := s.latestJob ref
  let key := s.preparedKeyForRef ref
  let keySource :=
    ((key.filter fun k => !k.isEmpty).bind s.getArtifact).map ArtifactRow.sourceSha256
  let verified := (key.getD []) ≠ [] ∧ s.verified.contains (key.getD []) = true
  let progress := job.bind StatusJob.progress
  let shown := failureView (job.bind StatusJob.failure) (job.map StatusJob.stage)
  { ref
    sourceSha256 := source.getD []
    state := rankedState (if stored.isEmpty then py "NEW" else stored) (decide verified) liveKey
      key keySource source
    phase := (progress.bind searchPhase).or
      ((job.map StatusJob.stage).bind fun stage =>
        if stage = .prepared then none else some stage.text)
    elapsed := progress.bind searchElapsed
    verified := decide verified
    errorCode := job.bind StatusJob.errorCode
    compileKey := key
    attempts := (job.map StatusJob.attempt).getD 0
    retryable := shown.2
    failure := shown.1
    inspection := rec_.bind StatusRef.inspection }

end FrigateXdna
