import FrigateXdna.Compiler.Checks
import FrigateXdna.Supervisor.Durability

/-!
# Checked and published bytes

The file of a compiled artifact is hashed by the launcher, loaded by the probe, read by the
validation, and read once more by the publication, which records the digest of what it
reads.  The file may be written or removed between these looks.

Main results:

- Theorem {lit}`runCompile_ok`: what a successful compile went through.
- Theorem {lit}`published_checked_iff`: when the recorded digest is the checked one.
-/

namespace FrigateXdna
namespace Launcher

open Python Library FrigateXdna.Durability

/-! ## Successful compiles -/

/-- A digest token is not empty. -/
theorem compileCoordinates_ne_nil {line sha : PyStr} {n : Int}
    (h : compileCoordinates line = some (sha, n)) : sha ≠ [] := by
  unfold compileCoordinates at h
  split at h
  · contradiction
  · split at h
    · contradiction
    · split at h
      · contradiction
      · split at h
        · contradiction
        next hvalid =>
          obtain ⟨rfl, rfl⟩ := Prod.mk.inj (Option.some.inj h)
          rintro rfl
          exact hvalid (by simp [parseDigestToken, splitWords, splitWordsGo])

/-- The phases that ended well. -/
theorem failedPhase_eq_some {name : PyStr} {p : Phase} {r : Result}
    (h : failedPhase name p = some r) : r.returncode ≠ 0 := by
  unfold failedPhase at h
  split at h
  · obtain rfl := Option.some.inj h
    simp
  · split at h
    next hcode =>
      obtain rfl := Option.some.inj h
      exact hcode
    · contradiction

/-- A prepare phase that ends the compile is an error. -/
theorem runPreparePhase_error {p : Phase} {r : Result} (h : runPreparePhase p = .error r) :
    r.returncode ≠ 0 := by
  unfold runPreparePhase at h
  split at h
  next hfailed =>
    obtain rfl := Except.error.inj h
    exact failedPhase_eq_some hfailed
  · dsimp only at h
    split at h
    · obtain rfl := Except.error.inj h
      simp
    · cases h

/-- A compile phase that ends the compile is an error. -/
theorem runVaimlPhase_error {p : Phase} {r : Result} (h : runVaimlPhase p = .error r) :
    r.returncode ≠ 0 := by
  unfold runVaimlPhase at h
  split at h
  next hfailed =>
    obtain rfl := Except.error.inj h
    exact failedPhase_eq_some hfailed
  · split at h
    · obtain rfl := Except.error.inj h
      simp
    · cases h

/-- The compiler names a digest. -/
theorem runVaimlPhase_ok {p : Phase} {sha : PyStr} {n : Int}
    (h : runVaimlPhase p = .ok (sha, n)) : sha ≠ [] := by
  unfold runVaimlPhase at h
  split at h
  · cases h
  · split at h
    · cases h
    next hfound =>
      obtain rfl := Except.ok.inj h
      exact compileCoordinates_ne_nil hfound

/-- An artifact that fails the check is an error. -/
theorem verifyArtifact_error {sha256 : Bytes → PyStr} {size : Option Nat}
    {hashed : Option Bytes} {logs : PhaseLogs} {sha : PyStr} {n : Int} {r : Result}
    (h : verifyArtifact sha256 size hashed logs sha n = some r) : r.returncode ≠ 0 := by
  unfold verifyArtifact at h
  dsimp only at h
  repeat' split at h
  all_goals first
    | contradiction
    | (obtain rfl := Option.some.inj h; simp)

/-- A successful validation names the artifact and what was found before. -/
theorem runValidatePhase_ok {p : Phase} {bf16Sha sha probed : PyStr} {n : Int}
    (hok : (runValidatePhase p bf16Sha sha n probed).returncode = 0) :
    runValidatePhase p bf16Sha sha n probed =
      { returncode := 0, bf16Sha256 := bf16Sha, raiPath := true, raiSha256 := sha,
        raiBytes := n, probe := probed } := by
  unfold runValidatePhase at hok ⊢
  split
  next hfailed =>
    rw [hfailed] at hok
    exact absurd hok (failedPhase_eq_some hfailed)
  · rfl

/-- **What a successful compile went through**: the file was hashed to the digest that the
compiler named, and the result names the artifact and that digest. -/
theorem runLocked_ok {sha256 : Bytes → PyStr} {w : World} {r : Result}
    (h : runLocked sha256 w = some r) (hok : r.returncode = 0) :
    ∃ checked, w.file.found .hash = some checked ∧ r.raiSha256 = sha256 checked ∧
      r.raiPath = true := by
  unfold runLocked at h
  split at h
  · contradiction
  split at h
  next hphase =>
    obtain rfl := Option.some.inj h
    exact absurd hok (runPreparePhase_error hphase)
  · split at h
    next hphase =>
      obtain rfl := Option.some.inj h
      exact absurd hok (runVaimlPhase_error hphase)
    next sha n hphase =>
      split at h
      next hcheck =>
        obtain rfl := Option.some.inj h
        exact absurd hok (verifyArtifact_error hcheck)
      next hcheck =>
        split at h
        · contradiction
        next hprobe =>
          obtain rfl := Option.some.inj h
          exact absurd hok (FailedCheck.probe hprobe).returncode.1
        next probed hprobe =>
          obtain rfl := Option.some.inj h
          rw [runValidatePhase_ok hok]
          obtain ⟨-, hsha⟩ := (verifyArtifact_eq_none_iff sha256).mp hcheck
          cases hhashed : w.file.found .hash with
          | none =>
              rw [hhashed] at hsha
              exact absurd hsha.symm (runVaimlPhase_ok hphase)
          | some checked =>
              rw [hhashed] at hsha
              exact ⟨checked, rfl, hsha.symm, rfl⟩

/-- A successful compile had the launcher lock. -/
theorem runCompile_ok {sha256 : Bytes → PyStr} {acquired : Bool} {w : World} {r : Result}
    (h : runCompile sha256 acquired w = some r) (hok : r.returncode = 0) :
    runLocked sha256 w = some r := by
  cases acquired with
  | true => exact h
  | false =>
      obtain rfl := Option.some.inj h
      contradiction

/-- With the lock the pipeline runs. -/
theorem runCompile_acquired (sha256 : Bytes → PyStr) (w : World) :
    runCompile sha256 true w = runLocked sha256 w :=
  if_pos rfl

/-- Behind a good prepare, compile, check and probe the validation decides. -/
theorem runLocked_validates {sha256 : Bytes → PyStr} {w : World} {bf16Sha sha probed : PyStr}
    {n : Int} (hcopied : w.copied = true) (hprepare : runPreparePhase w.prepare = .ok bf16Sha)
    (hcompile : runVaimlPhase w.compile = .ok (sha, n))
    (hverify : verifyArtifact sha256 ((w.file.found .size).map List.length)
      (w.file.found .hash) w.checkLogs sha n = none)
    (hprobe : runProbeStep w.probeStep = some (.ok probed)) :
    runLocked sha256 w = some (runValidatePhase (w.validate (w.file.found .validate)) bf16Sha
      sha n probed) := by
  simp only [runLocked, hcopied, hprepare, hcompile, hverify, hprobe, Bool.not_true,
    Bool.false_eq_true, if_false]

/-! ## Looks at the file -/

/-- The probe sends a {lit}`LOAD` of the artifact. -/
def World.Probed (w : World) : Prop :=
  w.dataDir = true ∧ (w.file.found .listed).isSome = true ∧
    ∃ spec out, w.spec = .ok spec ∧ w.probe (w.file.found .load) spec = .answered out

/-- The bytes that are read at a look; the {lit}`LOAD` is one only if the probe sends it. -/
def World.Reads (w : World) (look : Look) (data : Bytes) : Prop :=
  w.file.found look = some data ∧ (look = .load → w.Probed)

/-- A digest is the one that was checked, which the result of the compile carries, and the
one of the bytes that the probe and the validation ran on. -/
def Attested (sha256 : Bytes → PyStr) (w : World) (r : Result) (digest : PyStr) : Prop :=
  digest = r.raiSha256 ∧
    ∀ look ∈ [Look.load, .validate], ∀ data, w.Reads look data → sha256 data = digest

/-- What is read at the looks behind the hash is what was hashed. -/
def Untouched (w : World) : Prop :=
  ∀ look ∈ [Look.load, .validate, .publish], ∀ data, w.Reads look data →
    w.file.found .hash = some data

/-- The contents that the looks find have different digests. -/
def NoCollision (sha256 : Bytes → PyStr) (w : World) : Prop :=
  ∀ look look' data data', w.file.found look = some data → w.file.found look' = some data' →
    sha256 data = sha256 data' → data = data'

/-- A file that nobody writes to or removes behind the hash is untouched. -/
theorem untouched_of_unchanged {w : World}
    (h : ∀ look ∈ [Look.listed, .load, .validate, .publish], w.file.before look = []) :
    Untouched w := by
  have hsame : ∀ look ∈ [Look.load, .validate, .publish],
      w.file.found look = w.file.found .hash := by
    have hlisted := h .listed (by simp)
    have hload := h .load (by simp)
    have hvalidate := h .validate (by simp)
    have hpublish := h .publish (by simp)
    intro look hlook
    simp only [List.mem_cons, List.not_mem_nil, or_false] at hlook
    rcases hlook with rfl | rfl | rfl <;>
      simp [ArtifactFile.found, Look.upTo, hlisted, hload, hvalidate, hpublish]
  intro look hlook data hread
  rw [← hsame look hlook]
  exact hread.1

/-- The publication of a successful compile records the digest of what it reads. -/
theorem run_publish_real {setup : Setup} {r : Result} {s : Manager} {job : JobRow}
    {j : RealCompileJob} {data : Bytes} (hpath : r.raiPath = true)
    (hrow : s.registry.getArtifact (job.compileKey.getD []) = none)
    (hbackend : s.backends.lookup job.uuid = some (.real j))
    (hresult : j.result = some (r.seen (some data))) :
    ∃ t row, (publishResult setup job).run (Stmt.exec setup) s = (t, .ok ()) ∧
      t.registry.getArtifact (job.compileKey.getD []) = some row ∧
      row.artifactSha256 = setup.sha256 data := by
  have hrai : j.result.bind CompileResult.rai = some (some data) := by
    rw [hresult]
    simp [Result.seen, hpath]
  have hbytes : artifactBytes (job.compileKey.getD []) (.real j) = .ok data := by
    unfold artifactBytes
    dsimp only
    rw [hrai]
  have hleft : leftBytes s job.uuid (job.compileKey.getD []) = some data := by
    rw [leftBytes, hbackend]
    change (artifactBytes (job.compileKey.getD []) (.real j)).toOption = some data
    rw [hbytes]
    rfl
  obtain ⟨t, result, hpublish, hcase⟩ := run_publishResult setup rfl hrow
  rw [hleft] at hcase
  obtain ⟨rfl, hpublished⟩ := hcase
  obtain ⟨row, dir, hfound, -, hholds, hmodel⟩ := hpublished.artifact
  obtain ⟨data', hdata', hsha⟩ := hholds.model
  rw [hmodel] at hdata'
  exact ⟨t, row, hpublish, hfound, by rw [← hsha, Option.some.inj hdata']⟩

/-- **Published bytes are checked bytes** when what is read behind the hash is what was
hashed; and only then, if no two contents of the file have one digest. -/
theorem published_checked_iff {setup : Setup} {acquired : Bool} {w : World} {r : Result}
    {s : Manager} {job : JobRow} {j : RealCompileJob} {data : Bytes}
    (hrun : runCompile setup.sha256 acquired w = some r) (hok : r.returncode = 0)
    (hstands : w.file.found .publish = some data)
    (hrow : s.registry.getArtifact (job.compileKey.getD []) = none)
    (hbackend : s.backends.lookup job.uuid = some (.real j))
    (hresult : j.result = some (r.seen (w.file.found .publish))) :
    ∃ t row, (publishResult setup job).run (Stmt.exec setup) s = (t, .ok ()) ∧
      t.registry.getArtifact (job.compileKey.getD []) = some row ∧
      (Untouched w → Attested setup.sha256 w r row.artifactSha256) ∧
      (NoCollision setup.sha256 w →
        (Attested setup.sha256 w r row.artifactSha256 ↔ Untouched w)) := by
  obtain ⟨checked, hhashed, hchecked, hpath⟩ := runLocked_ok (runCompile_ok hrun hok) hok
  rw [hstands] at hresult
  obtain ⟨t, row, hpublish, hfound, hdigest⟩ :=
    run_publish_real hpath hrow hbackend hresult
  have hpublished : w.Reads .publish data := ⟨hstands, fun h => by contradiction⟩
  have henough : Untouched w → Attested setup.sha256 w r row.artifactSha256 := by
    intro huntouched
    have hsame : ∀ look ∈ [Look.load, .validate, .publish], ∀ data, w.Reads look data →
        data = checked := fun look hlook data hread =>
      Option.some.inj ((huntouched look hlook data hread).symm.trans hhashed)
    have hdata := hsame .publish (by simp) data hpublished
    refine ⟨by rw [hdigest, hdata, hchecked], fun look hlook data' hread => ?_⟩
    rw [hdigest, hdata, hsame look (by simp at hlook ⊢; tauto) data' hread]
  refine ⟨t, row, hpublish, hfound, henough, fun hcollision => ⟨?_, henough⟩⟩
  rintro ⟨hpublishedDigest, hran⟩ look hlook data' hread
  rw [hhashed]
  have hsha : setup.sha256 data' = setup.sha256 checked := by
    rw [← hchecked, ← hpublishedDigest]
    simp only [List.mem_cons, List.not_mem_nil, or_false] at hlook
    rcases hlook with rfl | rfl | rfl
    · exact hran .load (by simp) data' hread
    · exact hran .validate (by simp) data' hread
    · rw [Option.some.inj (hread.1.symm.trans hstands), hdigest]
  rw [hcollision look .hash data' checked hread.1 hhashed hsha]

/-! ## A file that changes before the publication -/

/-- The bytes of an artifact: the validation refuses less than a mebibyte. -/
def goodBytes : Bytes :=
  List.replicate 1048576 0

/-- As many other bytes. -/
def changedBytes : Bytes :=
  List.replicate 1048576 1

theorem changedBytes_ne : changedBytes ≠ goodBytes := by
  intro h
  have hbyte : (1 : UInt8) = 0 := (List.replicate_inj.mp h).2.resolve_left (by decide)
  exact absurd hbyte (by decide)

/-- The digest of {lit}`goodBytes`. -/
def checkedDigest : PyStr :=
  py "30e14955ebf1352266dc2ff8067e68104607e750abb9d3b36582b8af909fcb58"

/-- The digest of {lit}`changedBytes`. -/
def changedDigest : PyStr :=
  py "ee78cd29d3a534713b36e6ff6fa3668c8a8f851a542d5eb2401c25ca4e057d02"

/-- A digest function with these digests. -/
def publishSha256 (data : Bytes) : PyStr :=
  if data = goodBytes then checkedDigest
  else if data = changedBytes then changedDigest
  else sampleSha256 data

theorem publishSha256_goodBytes : publishSha256 goodBytes = checkedDigest := by
  unfold publishSha256
  rw [if_pos rfl]

theorem publishSha256_changedBytes : publishSha256 changedBytes = changedDigest := by
  unfold publishSha256
  rw [if_neg changedBytes_ne, if_pos rfl]

theorem publishSha256_ne_nil (data : Bytes) : publishSha256 data ≠ [] := by
  unfold publishSha256
  split
  · decide
  · split
    · decide
    · exact sampleSetup.sha256_ne_nil data

/-- A host with compilers and this digest function. -/
def publishSetup : Setup :=
  { Process.compilingSetup with
    sha256 := publishSha256
    sha256_ne_nil := publishSha256_ne_nil }

theorem publishSetup_sha256 : publishSetup.sha256 = publishSha256 :=
  rfl

/-- A log with one line. -/
def logOf (line : PyStr) : PhaseLogs where
  stdout := some (line.map UInt8.ofNat)

/-- A compile whose artifact is checked, loaded by the probe and validated, with what
happens to the file before the publication. -/
def goodWorld (late : List FileChange) : World where
  prepare := { logs := logOf (py "BF16_PREPARE_OK " ++ checkedDigest) }
  compile := { logs := logOf (py "COMPILE_OK " ++ checkedDigest ++ py " 1048576") }
  spec := .ok (80, [1, 3, 320, 320])
  probe _ _ := .answered (.ok (List.replicate Runtime.resultBytes 0))
  validate _ := {}
  file :=
    { left := some goodBytes
      before := fun look => if look = .publish then late else [] }

/-- The result of that compile. -/
def goodResult : Result where
  returncode := 0
  bf16Sha256 := checkedDigest
  raiPath := true
  raiSha256 := checkedDigest
  raiBytes := 1048576
  probe := py "ok"

/-- Up to the validation the looks find what the compile left. -/
theorem found_goodWorld (late : List FileChange) {look : Look} (h : look ≠ .publish) :
    (goodWorld late).file.found look = some goodBytes := by
  cases look with
  | publish => contradiction
  | _ => rfl

theorem runCompile_goodWorld (late : List FileChange) :
    runCompile publishSha256 true (goodWorld late) = some goodResult := by
  have hprepare : runPreparePhase (goodWorld late).prepare = .ok checkedDigest := by
    change runPreparePhase { logs := logOf (py "BF16_PREPARE_OK " ++ checkedDigest) } = _
    decide +kernel
  have hcompile : runVaimlPhase (goodWorld late).compile = .ok (checkedDigest, 1048576) := by
    change runVaimlPhase
      { logs := logOf (py "COMPILE_OK " ++ checkedDigest ++ py " 1048576") } = _
    decide +kernel
  have hverify : verifyArtifact publishSha256
      (((goodWorld late).file.found .size).map List.length) ((goodWorld late).file.found .hash)
      (goodWorld late).checkLogs checkedDigest 1048576 = none := by
    rw [found_goodWorld late (by decide), found_goodWorld late (by decide)]
    rw [verifyArtifact_eq_none_iff, Option.map_some, Option.map_some, Option.getD_some,
      publishSha256_goodBytes, goodBytes, List.length_replicate]
    exact ⟨⟨1048576, rfl, by decide, rfl⟩, rfl⟩
  have hprobe : runProbeStep (goodWorld late).probeStep = some (.ok (py "ok")) := by
    have hstep : (goodWorld late).probeStep =
        { spec := .ok (80, [1, 3, 320, 320])
          run := fun _ => .answered (.ok (List.replicate Runtime.resultBytes 0)) } := by
      rw [World.probeStep, found_goodWorld late (by decide)]
      rfl
    rw [hstep]
    decide +kernel
  have hvalidate : (goodWorld late).validate ((goodWorld late).file.found .validate) = {} := rfl
  rw [runCompile_acquired, runLocked_validates rfl hprepare hcompile hverify hprobe, hvalidate]
  rfl

/-- The job of the compile, {lit}`PREPARED` with some bytes at the path of its artifact. -/
def goodJob (data : Bytes) : RealCompileJob :=
  { ended goodResult with state := .prepared, result := some (goodResult.seen (some data)) }

/-- The manager that publishes it. -/
def publishing (data : Bytes) : Manager where
  registry := { jobs := [{ sampleRow with stage := .prepared }] }
  backends := AList.insert sampleRow.uuid (.real (goodJob data)) ∅

/-- The publication of an untouched file. -/
theorem published_checked_iff_untouched :
    ∃ t row, (publishResult publishSetup sampleRow).run (Stmt.exec publishSetup)
        (publishing goodBytes) = (t, .ok ()) ∧
      t.registry.getArtifact (sampleRow.compileKey.getD []) = some row ∧
      Attested publishSha256 (goodWorld []) goodResult row.artifactSha256 := by
  have hbackend : (publishing goodBytes).backends.lookup sampleRow.uuid =
      some (.real (goodJob goodBytes)) := AList.lookup_insert _
  have hrow : (publishing goodBytes).registry.getArtifact (sampleRow.compileKey.getD []) =
      none := rfl
  have hrun : runCompile publishSetup.sha256 true (goodWorld []) = some goodResult := by
    rw [publishSetup_sha256]
    exact runCompile_goodWorld []
  have hstands : (goodWorld []).file.found .publish = some goodBytes := rfl
  obtain ⟨t, row, hpublish, hfound, henough, -⟩ :=
    published_checked_iff hrun rfl hstands hrow hbackend rfl
  refine ⟨t, row, hpublish, hfound, henough (untouched_of_unchanged fun look _ => ?_)⟩
  exact ite_self []

/-- **A file that changes before the publication** is published under its own digest. -/
theorem changed_file_published :
    runCompile publishSha256 true (goodWorld [.write changedBytes]) = some goodResult ∧
      (goodWorld [.write changedBytes]).file.found .publish = some changedBytes ∧
      ∃ t row, (publishResult publishSetup sampleRow).run (Stmt.exec publishSetup)
          (publishing changedBytes) = (t, .ok ()) ∧
        t.registry.getArtifact (sampleRow.compileKey.getD []) = some row ∧
        row.artifactSha256 = changedDigest ∧
        ¬Attested publishSha256 (goodWorld [.write changedBytes]) goodResult
          row.artifactSha256 := by
  have hbackend : (publishing changedBytes).backends.lookup sampleRow.uuid =
      some (.real (goodJob changedBytes)) := AList.lookup_insert _
  obtain ⟨t, row, hrun, hrow, hdigest⟩ := run_publish_real (r := goodResult) rfl
    (show (publishing changedBytes).registry.getArtifact (sampleRow.compileKey.getD []) = none
      from rfl) hbackend rfl
  rw [publishSetup_sha256, publishSha256_changedBytes] at hdigest
  refine ⟨runCompile_goodWorld _, rfl, t, row, hrun, hrow, hdigest, fun h => ?_⟩
  have hsame : changedDigest = checkedDigest := hdigest.symm.trans h.1
  exact absurd hsame (by decide)

end Launcher
end FrigateXdna
