import FrigateXdna.Compiler.Backend
import FrigateXdna.Models.Tensors
import FrigateXdna.Python.Lines
import FrigateXdna.Python.Url

/-!
# The compiler launcher

A compile runs its phases one after another: prepare, compile, the check of the artifact,
the native probe, and validate.  The children, the logs they leave, the clock and the file
of the artifact are the environment: the file is looked at several times, and anyone may
change it in between.  Times, memory peaks and child environments are not modelled.

Main results:

- Definition {lit}`ArtifactFile.found`: what stands at the path of the artifact at each look.
- Definition {lit}`runLocked`: the whole pipeline.
- Theorem {lit}`verifyArtifact_eq_none_iff`: what the check of the artifact establishes.
-/

namespace FrigateXdna
namespace Launcher

open Python FrigateXdna.Runtime Models

/-! ## Results -/

/-- {lit}`CompileResult`, without times and peaks; {lit}`raiPath` tells whether it names a
file. -/
structure Result where
  returncode : Int
  bf16Sha256 : PyStr := []
  raiPath : Bool := false
  raiSha256 : PyStr := []
  raiBytes : Int := 0
  error : PyStr := []
  detail : PyStr := []
  probe : PyStr := []
deriving DecidableEq, Repr

/-- The result as the job manager and the publication read it, who find {lit}`rai` at the
path of the artifact. -/
def Result.seen (r : Result) (rai : Option Bytes) : CompileResult where
  returncode := r.returncode
  error := r.error
  detail := r.detail
  rai := if r.raiPath then some rai else none

/-! ## Logs -/

/-- The two log files of a phase, each if it can be read. -/
structure PhaseLogs where
  stdout : Option Bytes := none
  stderr : Option Bytes := none
deriving DecidableEq, Repr

/-- The lines in the last 4096 bytes of a log. -/
def logLines (log : Bytes) : List PyStr :=
  splitLines (decodeReplace (log.drop (log.length - 4096)))

/-- {lit}`_tail_line`. -/
def tailLine (log : Option Bytes) (marker : PyStr) : PyStr :=
  match log with
  | none => []
  | some data => ((logLines data).reverse.find? fun line => contains marker line).getD []

/-- {lit}`_last_lines`. -/
def lastLines (log : Option Bytes) : PyStr :=
  match log with
  | none => []
  | some data =>
      let kept := (logLines data).map strip |>.filter fun line => !line.isEmpty
      joinStr (py " / ") (kept.drop (kept.length - 3))

/-- {lit}`_phase_detail`. -/
def phaseDetail (logs : PhaseLogs) : PyStr :=
  let tail := lastLines logs.stdout
  let err := lastLines logs.stderr
  let tail :=
    if !err.isEmpty && err != tail then
      if tail.isEmpty then err else tail ++ py " | " ++ err
    else tail
  tail.take 500

/-- {lit}`_parse_digest_token`. -/
def parseDigestToken (line : PyStr) : PyStr :=
  ((splitWords line).findSome? fun token =>
    if token.length = 64 ∧ (lower token).all fun c =>
        decide (48 ≤ c ∧ c ≤ 57 ∨ 97 ≤ c ∧ c ≤ 102)
    then some (lower token) else none).getD []

/-! ## Phases -/

/-- What one child phase meets: whether the deadline has passed before it starts, and what
{lit}`spawn` gives and leaves. -/
structure Phase where
  expired : Bool := false
  returncode : Int := 0
  logs : PhaseLogs := {}
deriving DecidableEq, Repr

/-- {lit}`_TIMEOUT_ERROR`. -/
def timeoutError : PyStr :=
  py "compile timeout"

/-- A phase that did not start, or that ended with an error. -/
def failedPhase (name : PyStr) (p : Phase) : Option Result :=
  if p.expired then some { returncode := 124, error := timeoutError }
  else if p.returncode ≠ 0 then
    some
      { returncode := p.returncode
        error := name ++ (if p.returncode = 124 then py " timeout" else py " failed")
        detail := phaseDetail p.logs }
  else none

/-- {lit}`_run_prepare_phase`: the digest of the prepared model. -/
def runPreparePhase (p : Phase) : Except Result PyStr :=
  match failedPhase (py "bf16-prepare") p with
  | some r => .error r
  | none =>
      let bf16Sha := parseDigestToken (tailLine p.logs.stdout (py "BF16_PREPARE_OK"))
      if bf16Sha.isEmpty then
        .error
          { returncode := 1
            error := py "bf16-prepare marker missing"
            detail := phaseDetail p.logs }
      else .ok bf16Sha

/-- The digest and the size in a marker line: {lit}`line.rsplit(" ", 2)`, each checked. -/
def compileCoordinates (line : PyStr) : Option (PyStr × Int) :=
  match splitLast 32 line with
  | none => none
  | some (head, size) =>
      match splitLast 32 head with
      | none => none
      | some (_, sha) =>
          match intOfStr size with
          | none => none
          | some n => if (parseDigestToken sha).isEmpty || n ≤ 0 then none else some (sha, n)

/-- {lit}`_run_vaiml_phase`: the digest and the size that the compiler names. -/
def runVaimlPhase (p : Phase) : Except Result (PyStr × Int) :=
  match failedPhase (py "vaiml-compile") p with
  | some r => .error r
  | none =>
      match compileCoordinates (tailLine p.logs.stdout (py "COMPILE_OK")) with
      | none =>
          .error
            { returncode := 1
              error := py "vaiml-compile marker missing"
              detail := phaseDetail p.logs }
      | some found => .ok found

/-! ## The file of the artifact -/

/-- A change of the file. -/
inductive FileChange
  | write (data : Bytes)
  | remove
deriving DecidableEq, Repr

/-- What stands at the path after a change, if it can be opened. -/
def FileChange.apply (_ : Option Bytes) : FileChange → Option Bytes
  | .write data => some data
  | .remove => none

/-- The looks at the file, in order: {lit}`getsize` and the hash of the check,
{lit}`isfile` and the {lit}`LOAD` of the probe, the validation, and the publication. -/
inductive Look
  | size
  | hash
  | listed
  | load
  | validate
  | publish
deriving DecidableEq, Repr

/-- The looks up to one. -/
def Look.upTo : Look → List Look
  | .size => [.size]
  | .hash => [.size, .hash]
  | .listed => [.size, .hash, .listed]
  | .load => [.size, .hash, .listed, .load]
  | .validate => [.size, .hash, .listed, .load, .validate]
  | .publish => [.size, .hash, .listed, .load, .validate, .publish]

/-- What the compile phase leaves at the path, and what happens to it right before each
look. -/
structure ArtifactFile where
  left : Option Bytes
  before : Look → List FileChange := fun _ => []

/-- What a look finds. -/
def ArtifactFile.found (f : ArtifactFile) (look : Look) : Option Bytes :=
  (look.upTo.flatMap f.before).foldl FileChange.apply f.left

/-! ## The check of the artifact -/

section Digests

variable (sha256 : Bytes → PyStr)

/-- {lit}`_verify_artifact`: the size that {lit}`getsize` finds, then the bytes that it
reads. -/
def verifyArtifact (size : Option Nat) (hashed : Option Bytes) (logs : PhaseLogs)
    (raiSha : PyStr) (raiBytes : Int) : Option Result :=
  let fail (error : PyStr) : Option Result :=
    some { returncode := 1, error, detail := phaseDetail logs }
  match size with
  | none => fail (py "vaiml-compile artifact missing")
  | some actual =>
      if actual = 0 ∨ (actual : Int) ≠ raiBytes then
        fail (py "vaiml-compile artifact truncated: got " ++ natDigits actual ++
          py " want " ++ intRepr raiBytes)
      else if (hashed.map sha256).getD [] ≠ raiSha then
        fail (py "vaiml-compile artifact hash mismatch")
      else none

/-- **What the check of the artifact establishes**: size and digest are those the compiler
named. -/
theorem verifyArtifact_eq_none_iff {size : Option Nat} {hashed : Option Bytes}
    {logs : PhaseLogs} {raiSha : PyStr} {raiBytes : Int} :
    verifyArtifact sha256 size hashed logs raiSha raiBytes = none ↔
      (∃ n, size = some n ∧ n ≠ 0 ∧ (n : Int) = raiBytes) ∧
        (hashed.map sha256).getD [] = raiSha := by
  unfold verifyArtifact
  cases size with
  | none => simp
  | some n =>
      dsimp only
      by_cases hsize : n = 0 ∨ (n : Int) ≠ raiBytes
      · rw [if_pos hsize]
        constructor
        · exact fun h => by contradiction
        · rintro ⟨⟨m, hm, hzero, hbytes⟩, -⟩
          cases hm
          exact absurd hsize (by simp [hzero, hbytes])
      · rw [if_neg hsize]
        rw [not_or, not_not] at hsize
        by_cases hsha : (hashed.map sha256).getD [] = raiSha
        · rw [if_neg (not_not.mpr hsha)]
          exact ⟨fun _ => ⟨⟨n, rfl, hsize⟩, hsha⟩, fun _ => rfl⟩
        · rw [if_pos hsha]
          exact ⟨fun h => by contradiction, fun h => absurd h.2 hsha⟩

end Digests

/-! ## The native probe -/

/-- {lit}`_run_probe_exchange` on what the worker answers, which is the frame or the text
of its error: {lean}`none` is a passed probe. -/
def runProbeExchange : Except PyStr Bytes → Option PyStr
  | .error text => some text
  | .ok out =>
      if out.length ≠ resultBytes then some (py "short frame " ++ natDigits out.length)
      else if (words out).all finiteWord then none
      else some (py "non-finite probe output")

/-- What the probe meets: the device lease is held, an exception that nothing catches, or
a worker that is sent a {lit}`LOAD` and answers. -/
inductive ProbeRun
  | leaseHeld
  | raised
  | answered (out : Except PyStr Bytes)

/-- {lit}`probe_artifact`: the status and the detail, if it returns. -/
def probeArtifact : ProbeRun → Option (PyStr × PyStr)
  | .leaseHeld => some (py "skipped", py "device busy; activation LOAD validates")
  | .raised => none
  | .answered out =>
      match runProbeExchange out with
      | none => some (py "ok", [])
      | some detail => some (py "failed", detail)

/-- What the probe step meets: whether there is a data dir, whether a file stands at the
path of the artifact, what inspecting the source gives (the class count and the shape, or
the text of an exception), and the probe of that. -/
structure ProbeStep where
  dataDir : Bool := true
  listed : Bool := true
  spec : Except PyStr (Int × List Int)
  run : Int × List Int → ProbeRun

/-- {lit}`_run_probe_step`: what it recorded, or a final result, if it returns. -/
def runProbeStep (e : ProbeStep) : Option (Except Result PyStr) :=
  if e.dataDir && e.listed then
    match e.spec with
    | .error text =>
        some (.error { returncode := 7, error := py "probe inspection failed: " ++ text })
    | .ok spec =>
        match probeArtifact (e.run spec) with
        | none => none
        | some (status, detail) =>
            if status = py "failed" then
              some (.error
                { returncode := 7
                  error := py "probe failed: " ++ detail
                  probe := py "failed" })
            else some (.ok (if status = py "skipped" then py "skipped" else py "ok"))
  else some (.ok [])

/-! ## The pipeline -/

/-- {lit}`_run_validate_phase`. -/
def runValidatePhase (p : Phase) (bf16Sha raiSha : PyStr) (raiBytes : Int) (probed : PyStr) :
    Result :=
  match failedPhase (py "validate") p with
  | some r => r
  | none =>
      { returncode := 0
        bf16Sha256 := bf16Sha
        raiPath := true
        raiSha256 := raiSha
        raiBytes
        probe := probed }

/-- What a compile meets: whether its directories are made and the source is copied, the
children, which may do anything with the file they find, and the file of the artifact. -/
structure World where
  copied : Bool := true
  prepare : Phase
  compile : Phase
  checkLogs : PhaseLogs := {}
  dataDir : Bool := true
  spec : Except PyStr (Int × List Int)
  probe : Option Bytes → Int × List Int → ProbeRun
  validate : Option Bytes → Phase
  file : ArtifactFile

/-- The probe step, with what its looks find. -/
def World.probeStep (w : World) : ProbeStep where
  dataDir := w.dataDir
  listed := (w.file.found .listed).isSome
  spec := w.spec
  run := w.probe (w.file.found .load)

/-- {lit}`_run_locked`, if no exception ends the thread. -/
def runLocked (sha256 : Bytes → PyStr) (w : World) : Option Result :=
  if !w.copied then none
  else
    match runPreparePhase w.prepare with
    | .error r => some r
    | .ok bf16Sha =>
        match runVaimlPhase w.compile with
        | .error r => some r
        | .ok (raiSha, raiBytes) =>
            match verifyArtifact sha256 ((w.file.found .size).map List.length)
              (w.file.found .hash) w.checkLogs raiSha raiBytes with
            | some r => some r
            | none =>
                match runProbeStep w.probeStep with
                | none => none
                | some (.error r) => some r
                | some (.ok probed) =>
                    some (runValidatePhase (w.validate (w.file.found .validate)) bf16Sha raiSha
                      raiBytes probed)

/-- {lit}`run_compile`; {lit}`acquired` tells whether the launcher lock was free. -/
def runCompile (sha256 : Bytes → PyStr) (acquired : Bool) (w : World) : Option Result :=
  if acquired then runLocked sha256 w
  else
    some { returncode := 98, error := py "another compile owns the launcher lock" }

end Launcher
end FrigateXdna
