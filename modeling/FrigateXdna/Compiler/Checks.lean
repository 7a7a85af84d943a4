import FrigateXdna.Compiler.Launcher
import FrigateXdna.Library.Faults
import FrigateXdna.Process
import FrigateXdna.Supervisor.Rows

/-!
# Retries of compiles that failed a check

A compile whose artifact failed the native probe, whose source failed the inspection before
it, or whose artifact failed validation should stay failed.  The record that says so is
classified by searching the log tail and the error text of the launcher's result.

Main results:

- Definition {lit}`FailedCheck`: the results of such compiles.
- Theorem {lit}`performed_pump_ended`: the records that the advance of an ended compile writes.
- Theorem {lit}`failedCheck_final_iff`: when none of them ever comes up for a retry.
- Theorem {lit}`failedProbe_not_retriable`: a failed probe never does.
-/

namespace FrigateXdna
namespace Launcher

open Python Library

/-! ## Results of failed checks -/

/-- The results of compiles that failed the probe, the inspection before it or the
validation, except a validation that ended by its timeout. -/
inductive FailedCheck : Result → Prop
  | probe {e : ProbeStep} {r : Result} (h : runProbeStep e = some (.error r)) : FailedCheck r
  | validate {p : Phase} {bf16Sha raiSha probed : PyStr} {raiBytes : Int}
      (hfail : (runValidatePhase p bf16Sha raiSha raiBytes probed).returncode ≠ 0)
      (htime : (runValidatePhase p bf16Sha raiSha raiBytes probed).returncode ≠ 124) :
      FailedCheck (runValidatePhase p bf16Sha raiSha raiBytes probed)

/-- What the probe step gives as a final result. -/
theorem runProbeStep_error {e : ProbeStep} {r : Result}
    (h : runProbeStep e = some (.error r)) :
    (∃ text, e.spec = .error text ∧
        r = { returncode := 7, error := py "probe inspection failed: " ++ text }) ∨
      ∃ detail, r =
        { returncode := 7, error := py "probe failed: " ++ detail, probe := py "failed" } := by
  unfold runProbeStep at h
  split at h
  · split at h
    next text hspec =>
      cases h
      exact Or.inl ⟨text, hspec, rfl⟩
    next spec hspec =>
      split at h
      · contradiction
      next status detail _ =>
        split at h
        · cases h
          exact Or.inr ⟨detail, rfl⟩
        · cases h
  · cases h

/-- They are errors, and not timeouts. -/
theorem FailedCheck.returncode {r : Result} (h : FailedCheck r) :
    r.returncode ≠ 0 ∧ r.returncode ≠ 124 := by
  cases h with
  | validate hfail htime => exact ⟨hfail, htime⟩
  | probe h =>
      rcases runProbeStep_error h with ⟨text, -, rfl⟩ | ⟨detail, rfl⟩
      · simp
      · simp

/-! ## What an ended compile writes -/

/-- The state in which a real compile that has ended with an error is polled. -/
theorem poll_ended {j : RealCompileJob} {r : CompileResult} (hdone : j.done = false)
    (hthread : j.thread = .finished) (hresult : j.result = some r)
    (hfail : r.returncode ≠ 0) (htime : r.returncode ≠ 124) :
    j.poll.state = if r.returncode = 98 then .queued else .compileFailed := by
  unfold RealCompileJob.poll
  rw [hdone, hthread, hresult]
  simp only [Bool.false_eq_true, if_false]
  rw [if_neg htime]
  by_cases hbusy : r.returncode = 98
  · rw [if_pos hbusy, if_pos hbusy]
  · rw [if_neg hbusy, if_pos hfail, if_neg hbusy]

section Pump

variable {setup : Setup} {s : Manager}

/-- The row of a job after an update of it. -/
theorem getJob_modifyJob {r : Registry} {uuid : PyStr} {job : JobRow}
    (hjob : r.getJob uuid = some job) {f : JobRow → JobRow} (hf : (f job).uuid = job.uuid) :
    (r.modifyJob uuid f).getJob uuid = some (f job) := by
  unfold Registry.getJob Registry.modifyJob at *
  dsimp only
  generalize r.jobs = jobs at *
  induction jobs with
  | nil => contradiction
  | cons old rest ih =>
      by_cases hold : old.uuid = uuid
      · rw [List.find?_cons_of_pos (by simpa using hold)] at hjob
        cases hjob
        rw [List.map_cons, if_pos hold, List.find?_cons_of_pos (by simp [hf, hold])]
      · rw [List.find?_cons_of_neg (by simpa using hold)] at hjob
        rw [List.map_cons, if_neg hold, List.find?_cons_of_neg (by simpa using hold)]
        exact ih hjob

theorem run_someJob {uuid : PyStr} {job : JobRow} (hjob : s.registry.getJob uuid = some job) :
    (JobManager.someJob uuid).run (Stmt.exec setup) s = (s, .ok job) := by
  unfold JobManager.someJob
  rw [Program.run_bind, run_read]
  simp [hjob]

theorem performed_someJob {uuid : PyStr} {job : JobRow}
    (hjob : s.registry.getJob uuid = some job) :
    (JobManager.someJob uuid).performed (Stmt.exec setup) s = [.query] := by
  unfold JobManager.someJob
  rw [Program.performed_bind_of_ok _ (run_read setup _ s), hjob]
  rfl

/-- Whether a program writes a failure record to a row. -/
def Writes {β : Type} (setup : Setup) (p : Prog β) (s : Manager) (uuid : PyStr)
    (record : Failure) : Prop :=
  .setFailure uuid record ∈ p.performed (Stmt.exec setup) s

/-- The record that the advance of an ended compile gives its row. -/
def endRecord (s : Manager) (job : JobRow) (r : CompileResult) : Failure :=
  newRecord s.memlockAdequate .compileFailed (some Stage.compileFailed.text) r.detail
    job.attempt s.now ((job.failure.bind Failure.history).getD []) r.error

/-- A row whose record is not due writes nothing. -/
theorem performed_maybeResume {ref : PyStr} {key : Option PyStr} {failed : JobRow}
    {record : Failure} (hrecord : failed.failure = some record)
    (hdue : (autoEligible s.memlockAdequate (some record) s.now).1 = false)
    (held : Bool) (extra : JobManager.Extra) :
    ∀ a ∈ (JobManager.maybeResume setup ref key failed held extra).performed
      (Stmt.exec setup) s, a = .query := by
  unfold JobManager.maybeResume
  rw [Program.performed_bind_of_ok _ (run_read setup _ s)]
  split
  · simp [read, Program.performed, Pure.pure]
  · rw [Program.performed_bind_of_ok _ (run_read setup _ s)]
    split
    · simp [read, Program.performed, Pure.pure]
    · rw [hrecord]
      dsimp only
      rw [Program.performed_bind_of_ok _ (run_read setup _ s), hdue]
      simp [read, Program.performed, Pure.pure]

/-- The record of a terminal outcome. -/
theorem performed_recordTerminal {uuid : PyStr} {row : JobRow}
    (hrow : s.registry.getJob uuid = some row) (stage : Stage) (code : Option PyStr)
    (detail text : PyStr) :
    let record := newRecord s.memlockAdequate stage code detail row.attempt s.now
      ((row.failure.bind Failure.history).getD []) text
    (JobManager.recordTerminal uuid stage code detail text).run (Stmt.exec setup) s =
        ((Stmt.setFailure uuid record).exec setup s,
          .ok { row with failure := some record, updatedAt := s.now }) ∧
      (JobManager.recordTerminal uuid stage code detail text).performed (Stmt.exec setup) s =
        [.query, .query, .setFailure uuid record, .query] := by
  intro record
  have hagain : ((Stmt.setFailure uuid record).exec setup s).registry.getJob uuid =
      some { row with failure := some record, updatedAt := s.now } :=
    getJob_modifyJob hrow rfl
  have hset : (exec (.setFailure uuid record)).run (Stmt.exec setup) s =
      ((Stmt.setFailure uuid record).exec setup s, .ok ()) :=
    rfl
  unfold JobManager.recordTerminal
  constructor
  · rw [Program.run_bind_of_ok _ (run_someJob hrow), Program.run_bind_of_ok _ (run_read setup _ s),
      Program.run_bind_of_ok _ hset]
    exact run_someJob hagain
  · rw [Program.performed_bind_of_ok _ (run_someJob hrow),
      Program.performed_bind_of_ok _ (run_read setup _ s),
      Program.performed_bind_of_ok _ hset, performed_someJob hrow, performed_someJob hagain]
    rfl

/-- **What the advance of an ended compile writes**: after four other actions its record, and
more only if the record is due at once.  Behind a busy launcher it writes nothing. -/
theorem performed_pump_ended {uuid : PyStr} {job : JobRow} {j : RealCompileJob}
    {r : CompileResult} (hjob : s.registry.getJob uuid = some job)
    (hbackend : s.backends.lookup uuid = some (.real j)) (hdone : j.done = false)
    (hthread : j.thread = .finished) (hresult : j.result = some r)
    (hfail : r.returncode ≠ 0) (htime : r.returncode ≠ 124)
    (hopen : ¬(job.stage = .compileFailed ∧ JobManager.hasRecord job = true)) (dt : Int)
    (record : Failure) :
    (r.returncode = 98 → ¬Writes setup (JobManager.pump setup uuid dt) s uuid record) ∧
      (r.returncode ≠ 98 →
        (Writes setup (JobManager.pump setup uuid dt) s uuid (endRecord s job r)) ∧
        ((autoEligible s.memlockAdequate (some (endRecord s job r)) s.now).1 = false →
          Writes setup (JobManager.pump setup uuid dt) s uuid record →
            record = endRecord s job r)) := by
  have hstate := poll_ended hdone hthread hresult hfail htime
  let polled := (Stmt.poll uuid dt).exec setup s
  let code := if j.poll.state.terminalError then some j.poll.state.text else none
  let set := (Stmt.setJob uuid j.poll.state code).exec setup polled
  let row : JobRow :=
    { job with stage := j.poll.state, errorCode := code, progress := none, updatedAt := s.now }
  have hpolled : polled = { s with backends := s.backends.insert uuid (.real j.poll) } := by
    simp only [polled, Stmt.exec, hbackend]
    rfl
  have hrow : set.registry.getJob uuid = some row := by
    simp only [set, hpolled, Stmt.exec]
    exact getJob_modifyJob hjob rfl
  have hpoll : (JobManager.pollBackend uuid dt (.real j)).run (Stmt.exec setup) s =
      (polled, .ok (.real j.poll)) := by
    simp [JobManager.pollBackend, polled, hbackend, Backend.poll]
  have hset : (exec (.setJob uuid (Backend.real j.poll).state
      (if (Backend.real j.poll).state.terminalError then some (Backend.real j.poll).state.text
        else none))).run (Stmt.exec setup) polled = (set, .ok ()) :=
    rfl
  have hacts : (JobManager.pump setup uuid dt).performed (Stmt.exec setup) s =
      [.query, .query, .poll uuid dt, .setJob uuid j.poll.state code, .query] ++
        (if j.poll.state.terminalError &&
            !(some job.stage == some j.poll.state && JobManager.hasRecord row) then
          JobManager.finishTerminal setup uuid (.real j.poll) row
        else pure row).performed (Stmt.exec setup) set := by
    unfold JobManager.pump
    rw [Program.performed_bind_of_ok _ (run_read setup _ s), hbackend]
    dsimp only
    rw [Program.performed_bind_of_ok _ (run_read setup _ s), hjob,
      Program.performed_bind_of_ok _ hpoll, Program.performed_bind_of_ok _ hset,
      Program.performed_bind_of_ok _ (run_someJob hrow), performed_someJob hrow]
    rfl
  unfold Writes
  rw [hacts]
  constructor
  · intro hbusy
    rw [hstate, if_pos hbusy]
    simp [Stage.terminalError, Program.performed, Pure.pure]
  · intro hbusy
    have hcompiled : j.poll.state = .compileFailed := by rw [hstate, if_neg hbusy]
    have hnew : (some job.stage == some Stage.compileFailed && JobManager.hasRecord row) =
        false := by
      rw [← Bool.not_eq_true]
      intro h
      simp only [Bool.and_eq_true, beq_iff_eq, Option.some.injEq] at h
      exact hopen ⟨h.1, h.2⟩
    obtain ⟨hrun, hlist⟩ := @performed_recordTerminal setup _ uuid row hrow row.stage
      row.errorCode r.detail r.error
    have hrecord : newRecord set.memlockAdequate row.stage row.errorCode r.detail row.attempt
        set.now ((row.failure.bind Failure.history).getD []) r.error = endRecord s job r := by
      simp only [set, hpolled, Stmt.exec, row, code, hcompiled]
      rfl
    rw [hrecord] at hrun hlist
    have hevidence : (Backend.real j.poll).evidence = (r.detail, r.error) := by
      simp [Backend.evidence, j.poll_kept.2.2.2, hresult]
    have hfinish : (JobManager.finishTerminal setup uuid (.real j.poll) row).performed
        (Stmt.exec setup) set =
          [.query, .query, .setFailure uuid (endRecord s job r), .query] ++
            (JobManager.maybeResume setup row.ref row.compileKey
              { row with failure := some (endRecord s job r), updatedAt := set.now } false
                {}).performed (Stmt.exec setup)
              ((Stmt.setFailure uuid (endRecord s job r)).exec setup set) := by
      unfold JobManager.finishTerminal
      rw [hevidence, Program.performed_bind_of_ok _ hrun, hlist,
        Program.performed_bind_quiet (Stmt.exec setup) fun b t => by cases b <;> rfl]
    rw [hcompiled, hnew]
    simp only [Stage.terminalError, Bool.not_false, Bool.and_true, if_true, hfinish]
    constructor
    · simp
    · intro hdue hmem
      simp only [List.mem_append, List.mem_cons, List.not_mem_nil, or_false, reduceCtorEq,
        false_or, Stmt.setFailure.injEq, true_and] at hmem
      rcases hmem with hrec | hmem
      · exact hrec
      · have hkept : set.memlockAdequate = s.memlockAdequate ∧ set.now = s.now := by
          simp only [set, hpolled]
          exact ⟨rfl, rfl⟩
        have hlater : (autoEligible
            ((Stmt.setFailure uuid (endRecord s job r)).exec setup set).memlockAdequate
            (some (endRecord s job r))
            ((Stmt.setFailure uuid (endRecord s job r)).exec setup set).now).1 = false := by
          simp only [Stmt.exec, hkept]
          exact hdue
        exact absurd (performed_maybeResume rfl hlater false {} _ hmem) (by simp)

/-! ## When a failed check is final -/

/-- Whether no record of a failed check can come up for a retry: a busy launcher leaves no
record, the last attempt has no successor, and the evidence does not speak for one. -/
def Final (memlockAdequate : Bool) (attempt : Int) (r : Result) : Prop :=
  r.returncode = 98 ∨ maxAttempts ≤ attempt ∨
    retriable memlockAdequate r.detail r.error = false

/-- A failed probe never comes up for a retry, whatever the worker answered. -/
theorem failedProbe_not_retriable (memlockAdequate : Bool) (detail : PyStr) :
    retriable memlockAdequate [] (py "probe failed: " ++ detail) = false := by
  have hmarker : contains (py "probe failed") (py "probe failed: " ++ detail) = true := rfl
  have hmemlock : memlockPattern [] = false := by decide
  unfold retriable
  rw [hmemlock, hmarker]
  rfl

/-- **Failed checks stay failed**, at every later time and under every later resource limit,
exactly when their result is {lit}`Final`. -/
theorem failedCheck_final_iff {uuid : PyStr} {job : JobRow} {j : RealCompileJob} {r : Result}
    {rai : Option Bytes} (hcheck : FailedCheck r) (hjob : s.registry.getJob uuid = some job)
    (hbackend : s.backends.lookup uuid = some (.real j)) (hdone : j.done = false)
    (hthread : j.thread = .finished) (hresult : j.result = some (r.seen rai))
    (hopen : ¬(job.stage = .compileFailed ∧ JobManager.hasRecord job = true)) (dt : Int) :
    (∀ record, Writes setup (JobManager.pump setup uuid dt) s uuid record →
        ∀ adequate later, (autoEligible adequate (some record) later).1 = false) ↔
      Final s.memlockAdequate job.attempt r := by
  obtain ⟨hfail, htime⟩ := hcheck.returncode
  have hwrites := @performed_pump_ended setup s uuid job j _ hjob hbackend hdone hthread hresult
    hfail htime hopen dt
  have heligible := newRecord_eligible_iff s.memlockAdequate r.detail job.attempt s.now
    ((job.failure.bind Failure.history).getD []) r.error
  constructor
  · intro hnever
    by_cases hbusy : r.returncode = 98
    · exact Or.inl hbusy
    · refine Or.inr ?_
      obtain ⟨hwritten, -⟩ := (hwrites (endRecord s job (r.seen rai))).2 hbusy
      by_contra hnot
      rw [not_or, Bool.not_eq_false, not_le] at hnot
      obtain ⟨adequate, later, heligible⟩ := heligible.mpr hnot
      have hno := hnever _ hwritten adequate later
      exact absurd (heligible.symm.trans hno) (by decide)
  · rintro hfinal record hrecord adequate later
    by_cases hbusy : r.returncode = 98
    · exact absurd hrecord ((hwrites record).1 hbusy)
    · have hnone : ∀ adequate later,
          (autoEligible adequate (some (endRecord s job (r.seen rai))) later).1 = false := by
        intro adequate later
        rw [← Bool.not_eq_true]
        intro h
        obtain ⟨hbudget, hretriable⟩ := heligible.mp ⟨adequate, later, h⟩
        rcases hfinal with hfinal | hfinal | hfinal
        · exact hbusy hfinal
        · omega
        · exact absurd (hretriable.symm.trans hfinal) (by decide)
      obtain rfl := ((hwrites record).2 hbusy).2 (hnone _ _) hrecord
      exact hnone adequate later

end Pump

/-! ## A final probe and a validation that retries -/

/-- The row of a compile. -/
def sampleRow : JobRow where
  uuid := py "job-1"
  ref := py "plus://m"
  compileKey := some (py "key")
  stage := .compiling
  attempt := 1
  createdAt := 0
  updatedAt := 0
  bootToken := some (py "boot")
  progress := none
  errorCode := none
  failure := none
  sourceSha256 := some (py "digest")

/-- The backend of a compile that has ended. -/
def ended (r : Result) : RealCompileJob where
  sourceSha256 := py "digest"
  compileKey := py "key"
  source := (py "digest", py "model.onnx")
  state := .compiling
  thread := .finished
  result := some (r.seen none)

/-- A manager whose only compile has ended. -/
def endedState (r : Result) : Manager where
  registry := { jobs := [sampleRow] }
  backends := AList.insert sampleRow.uuid (.real (ended r)) ∅

/-- A worker that answered with a torn frame. -/
def tornFrame : ProbeStep where
  spec := .ok (80, [1, 3, 320, 320])
  run _ := .answered (.ok [0, 0, 0, 0])

/-- A probe that failed at a torn frame. -/
def failedProbe : Result where
  returncode := 7
  error := py "probe failed: short frame 4"
  probe := py "failed"

/-- The compile of that manager. -/
theorem endedState_spec (r : Result) :
    (endedState r).registry.getJob sampleRow.uuid = some sampleRow ∧
      (endedState r).backends.lookup sampleRow.uuid = some (.real (ended r)) ∧
      (ended r).result = some (r.seen none) :=
  ⟨rfl, AList.lookup_insert _, rfl⟩

/-- The record of the failed probe is final. -/
theorem failedCheck_final_iff_probe :
    Final (endedState failedProbe).memlockAdequate sampleRow.attempt failedProbe ∧
      ∀ record, Writes Process.compilingSetup
          (JobManager.pump Process.compilingSetup sampleRow.uuid 1) (endedState failedProbe)
          sampleRow.uuid record →
        ∀ adequate later, (autoEligible adequate (some record) later).1 = false := by
  obtain ⟨hjob, hbackend, hresult⟩ := endedState_spec failedProbe
  have hcheck : FailedCheck failedProbe := .probe (e := tornFrame) (by decide)
  have hfinal : Final (endedState failedProbe).memlockAdequate sampleRow.attempt failedProbe :=
    Or.inr (Or.inr (by decide))
  exact ⟨hfinal,
    (failedCheck_final_iff hcheck hjob hbackend rfl rfl hresult (by decide) 1).mpr hfinal⟩

/-- A validation whose log speaks of a timeout that is not its own. -/
def staleValidation : Result :=
  runValidatePhase
    { returncode := 1
      logs := { stdout := some ((py "reader: lock timeout").map UInt8.ofNat) } }
    (py "bf") (py "ra") 3 (py "ok")

/-- **A failed validation that retries**: its log tail speaks of a timeout. -/
theorem failedValidation_retries :
    FailedCheck staleValidation ∧
      ∃ record, Writes Process.compilingSetup
          (JobManager.pump Process.compilingSetup sampleRow.uuid 1)
          (endedState staleValidation) sampleRow.uuid record ∧
        ∃ adequate later, (autoEligible adequate (some record) later).1 = true := by
  obtain ⟨hjob, hbackend, hresult⟩ := endedState_spec staleValidation
  have hrecord : Writes Process.compilingSetup
      (JobManager.pump Process.compilingSetup sampleRow.uuid 1) (endedState staleValidation)
      sampleRow.uuid
      (endRecord (endedState staleValidation) sampleRow (staleValidation.seen none)) :=
    ((performed_pump_ended hjob hbackend rfl rfl hresult (by decide) (by decide) (by decide) 1
      {}).2 (by decide)).1
  exact ⟨.validate (by decide) (by decide), _, hrecord,
    (newRecord_eligible_iff _ _ _ _ _ _).mpr ⟨by decide, by decide⟩⟩

end Launcher
end FrigateXdna
