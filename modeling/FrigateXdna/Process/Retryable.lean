import FrigateXdna.ModelView
import FrigateXdna.Process.Budget
import FrigateXdna.Process.Records

/-!
# What a status calls retryable and what a recovery retries

A status projects the newest job of a ref, its own or one it joined.  {lit}`recover_ref` takes
the newest failed row of the ref, and {lit}`requeue` then looks for the newest row of the very
ref under the key of that one.  The two agree when the row they end at is equally retryable.

Main results:

- Theorem {lit}`JobRow.shown_retryable`, {lit}`JobRow.requeue_retries`: the view and the requeue
  read a record alike.
- Theorem {lit}`Process.status_recover_agree_iff`: when a status and a recovery agree.
- Theorem {lit}`Process.agree_of_own`: they agree on a failed job that is the newest of the ref
  itself.
-/

namespace FrigateXdna

open Python Library JobManager

variable {setup : Setup}

/-! ## What a status reads -/

/-- The entries of a failure record that a view reads; its texts for the operator are left
out. -/
def Failure.fields (f : Failure) : List (PyStr × Json) :=
  [(py "phase", f.phase.map fun p => Json.str p.text), (py "code", f.code.map Json.str),
    (py "kind", f.kind.map fun k => Json.str k.text),
    (py "retryable", f.retryable.map Json.bool),
    (py "attempts", f.attempts.map Json.int)].filterMap fun e => e.2.map fun v => (e.1, v)

/-- A row of {lit}`jobs` as a status reads it. -/
def JobRow.status (j : JobRow) : StatusJob where
  uuid := j.uuid
  ref := j.ref
  compileKey := j.compileKey
  stage := j.stage
  attempt := j.attempt
  updatedAt := j.updatedAt
  progress := j.progress
  errorCode := j.errorCode
  failure := j.failure.map Failure.fields

/-- The registry of the process as a status reads it.  The passed checks and the inspections
are columns that the process does not read. -/
def Registry.status (r : Registry) (verified : List PyStr) (inspection : PyStr → Option Json) :
    StatusStore where
  refs := r.refs.map fun m => ⟨m.ref, m.state, m.sourceSha256, inspection m.ref⟩
  jobs := r.jobs.map JobRow.status
  aliases := r.aliases
  artifacts := r.artifacts
  verified := verified

/-- {lit}`latest_job_for_ref`. -/
def Registry.latestJobForRef (r : Registry) (ref : PyStr) : Option JobRow :=
  let rows := r.jobs.filter fun j => j.ref == ref || r.isAlias j.uuid ref
  (newestBy JobRow.updatedAt (rows.filter fun j => !j.stage.terminal)).or
    (newestBy JobRow.updatedAt (rows.filter fun j => j.stage.terminal))

/-- A status finds the newest job that the registry names. -/
theorem Registry.status_latestJob (r : Registry) (verified : List PyStr)
    (inspection : PyStr → Option Json) (ref : PyStr) :
    (r.status verified inspection).latestJob ref =
      (r.latestJobForRef ref).map JobRow.status := by
  have hrows : (r.status verified inspection).jobsOf ref =
      (r.jobs.filter fun j => j.ref == ref || r.isAlias j.uuid ref).map JobRow.status := by
    simp only [StatusStore.jobsOf, Registry.status, List.filter_map]
    rfl
  have hnewest : ∀ rows : List JobRow, newestBy StatusJob.updatedAt (rows.map JobRow.status) =
      (newestBy JobRow.updatedAt rows).map JobRow.status := fun rows =>
    newestBy_map (fun _ => rfl) rows
  simp only [StatusStore.latestJob, hrows, List.filter_map, hnewest, Registry.latestJobForRef]
  generalize (r.jobs.filter fun j => j.ref == ref || r.isAlias j.uuid ref) = rows
  change Option.or (Option.map _ (newestBy _ (rows.filter fun j => !j.stage.terminal)))
    (Option.map _ (newestBy _ (rows.filter fun j => j.stage.terminal))) = _
  cases newestBy JobRow.updatedAt (rows.filter fun j => !j.stage.terminal) <;> rfl

/-! ## Retryable rows -/

/-- Whether a row may be retried: its record says so, or it failed without a record at a stage
that is not final. -/
def JobRow.retries (j : JobRow) : Bool :=
  match j.failure with
  | none => j.stage.terminalError && !legacyNoRetry j.stage
  | some record => record.retryable.getD false

/-- What every record of the process keeps to: a record that calls itself retryable is one of
a failure, and of no class that never retries. -/
def Candid (record : Failure) : Prop :=
  record.retryable = some true →
    record.phase.isSome = true ∧ record.kind ≠ some .safety ∧ record.kind ≠ some .permanent

/-- A class that retries is neither safety nor permanent. -/
theorem classify_retryable {memlockAdequate : Bool} {stage : Stage} {errorCode : Option PyStr}
    {detail errorText : PyStr}
    (h : (classify memlockAdequate stage errorCode detail errorText).retryable = true) :
    (classify memlockAdequate stage errorCode detail errorText).kind ≠ .safety ∧
      (classify memlockAdequate stage errorCode detail errorText).kind ≠ .permanent := by
  unfold classify classifySafety classifyPermanent classifyEvidence at *
  dsimp only at *
  split_ifs at h ⊢ <;> simp_all

/-- A terminal record is candid. -/
theorem candid_newRecord (memlockAdequate : Bool) (stage : Stage) (errorCode : Option PyStr)
    (detail : PyStr) (attempt now : Int) (base : List HistoryEntry) (errorText : PyStr) :
    Candid (newRecord memlockAdequate stage errorCode detail attempt now base errorText) := by
  intro h
  have hcls := classify_retryable (Option.some.inj h)
  exact ⟨rfl, fun hk => hcls.1 (Option.some.inj hk), fun hk => hcls.2 (Option.some.inj hk)⟩

/-- The process only writes candid records. -/
theorem candid_rule : RecordRule Candid where
  empty h := by contradiction
  lineage prevUuid history h := by contradiction
  terminal := candid_newRecord
  interrupted rowBoot attempt s h := by
    unfold interruptRecord at h ⊢
    dsimp only at h ⊢
    split
    · exact ⟨rfl, by simp, by simp⟩
    · rename_i hsure
      rw [if_neg hsure] at h
      exact candid_newRecord _ _ _ _ _ _ _ _ h
  consumed record uuid hrecord h := hrecord h
  refused record text hrecord h := hrecord h

/-- What a view shows of a record. -/
theorem failureView_fields (record : Failure) (stage : Option Stage) :
    (failureView (some record.fields) stage).2 =
      (record.phase.isSome && record.retryable.getD false) := by
  obtain ⟨phase, code, kind, retryable, attempts, _, _, _, _, _⟩ := record
  cases phase <;> cases code <;> cases kind <;> cases retryable <;> cases attempts <;> rfl

/-- **A view calls a row retryable** when it may be retried. -/
theorem JobRow.shown_retryable {j : JobRow} (h : j.Respects Candid) :
    (failureView (j.failure.map Failure.fields) (some j.stage)).2 = j.retries := by
  unfold JobRow.retries
  cases hrecord : j.failure with
  | none => rfl
  | some record =>
      simp only [Option.map_some, failureView_fields]
      cases hretry : record.retryable with
      | none => simp
      | some b =>
          cases b with
          | false => simp
          | true => simp [(h record hrecord hretry).1]

/-- **A requeue takes a failed row** when it may be retried. -/
theorem JobRow.requeue_retries {j : JobRow} (h : j.Respects Candid)
    (herror : j.stage.terminalError = true) : (requeuePrev j).isSome = j.retries := by
  unfold JobRow.retries requeuePrev
  cases hrecord : j.failure with
  | none =>
      dsimp only
      cases hstage : j.stage <;> simp [hstage, Stage.terminalError, legacyNoRetry] at herror ⊢
  | some record =>
      dsimp only
      cases hretry : record.retryable with
      | none => split <;> rfl
      | some b =>
          cases b with
          | false => split <;> rfl
          | true =>
              obtain ⟨-, hsafety, hpermanent⟩ := h record hrecord hretry
              simp [hsafety, hpermanent]

/-! ## What a recovery opens -/

/-- The row that {lit}`requeue` looks up for {lit}`recover_ref`: the newest of the ref itself,
under the key of the newest failed row of the ref or of a job it joined. -/
def recoveryRow (r : Registry) (ref : PyStr) : Option JobRow :=
  (r.terminalRowForRef ref).bind fun row => r.findJob ref row.compileKey

/-- Whether the source of a row resolves for a new attempt. -/
def resolves (setup : Setup) (s : Manager) (row : JobRow) : Bool :=
  constructible setup s (attemptArgs row.compileKey false {} row.sourceSha256)

/-- Whether {lit}`recover_ref` opens an attempt. -/
def opensAttempt (setup : Setup) (s : Manager) (ref : PyStr) : Bool :=
  !(Process.newKeys s.registry
    ((requeueRef setup ref).run (Act.exec setup) s).1.registry).isEmpty

/-- No row is new in the same registry. -/
theorem newKeys_self (r : Registry) : Process.newKeys r r = [] := by
  simp only [Process.newKeys, List.map_eq_nil_iff, List.filter_eq_nil_iff]
  intro j hj
  simpa using ⟨j, hj, rfl⟩

/-- What {lit}`recover_ref` opens is what {lit}`requeue` opens for the key it is given. -/
theorem opensAttempt_eq {s : Manager} (hfresh : Fresh setup s) (ref : PyStr) :
    opensAttempt setup s ref =
      (s.registry.terminalRowForRef ref).any fun row =>
        (requeued setup s ref row.compileKey).isSome := by
  unfold opensAttempt requeueRef
  rw [Program.run_bind]
  have hread : (spread (read fun s => s.registry.terminalRowForRef ref)).run (Act.exec setup) s =
      (s, .ok (s.registry.terminalRowForRef ref)) := rfl
  rw [hread]
  cases hrow : s.registry.terminalRowForRef ref with
  | none => simp [newKeys_self]
  | some row =>
      have hgrown := exec_requeue_grown hfresh ref row.compileKey
      have hstate : ((atomically setup (.requeue ref row.compileKey)
          (requeue setup ref row.compileKey) >>= fun _ => pure ()).run (Act.exec setup) s).1 =
            (Act.requeue ref row.compileKey).exec setup s := by
        unfold atomically
        rw [Program.run_bind]
        simp only [Program.run_act]
        split <;> rename_i heq <;> split at heq <;> cases heq <;> rfl
      dsimp only
      rw [hstate, Process.newKeys_of_grown hfresh hgrown]
      rw [Option.any_some]
      cases requeued setup s ref row.compileKey <;> rfl

/-- The row that {lit}`find_job` returns has the key it was asked for. -/
theorem findJob_compileKey {r : Registry} {ref : PyStr} {key : Option PyStr} {j : JobRow}
    (h : r.findJob ref key = some j) : j.compileKey = key := by
  have hmatch := (List.mem_filter.mp (newestBy_mem h)).2
  simp only [Bool.and_eq_true, beq_iff_eq] at hmatch
  exact hmatch.2

/-- **When a recovery opens an attempt**: the row it looks up failed, its key has no live
attempt, its source resolves and it may be retried. -/
theorem opensAttempt_iff {s : Manager} (hfresh : Fresh setup s) (hcandid : Recorded Candid s)
    (hinh : s.registry.state.inhibition = none) (ref : PyStr) :
    opensAttempt setup s ref = true ↔
      ∃ row, recoveryRow s.registry ref = some row ∧
        row.stage.terminalError = true ∧ hasLive s row.compileKey = false ∧
        resolves setup s row = true ∧ row.retries = true := by
  rw [opensAttempt_eq hfresh, Option.any_eq_true]
  constructor
  · rintro ⟨failed, hfailed, hopens⟩
    have hstops : requeueStops setup s ref failed.compileKey = false := by
      by_contra hstops
      rw [Bool.not_eq_false] at hstops
      rw [requeued_eq_none_iff.mpr hstops] at hopens
      contradiction
    unfold requeueStops at hstops
    cases hfind : s.registry.findJob ref failed.compileKey with
    | none => simp [hfind] at hstops
    | some row =>
        have hkey := findJob_compileKey hfind
        simp only [hfind, Option.all_some, Bool.or_eq_false_iff, Bool.not_eq_false'] at hstops
        obtain ⟨⟨hlive, -⟩, ⟨herror, hprev⟩, hsource⟩ := hstops
        refine ⟨row, by rw [recoveryRow, hfailed]; exact hfind, herror, hkey ▸ hlive, ?_, ?_⟩
        · unfold resolves
          rw [hkey]
          exact hsource
        · rw [← row.requeue_retries (hcandid row (findJob_mem hfind)) herror]
          simpa using hprev
  · rintro ⟨row, hrow, herror, hlive, hsource, hretries⟩
    obtain ⟨failed, hfailed, hfind⟩ := Option.bind_eq_some_iff.mp hrow
    have hkey := findJob_compileKey hfind
    refine ⟨failed, hfailed, ?_⟩
    rw [← row.requeue_retries (hcandid row (findJob_mem hfind)) herror] at hretries
    unfold resolves at hsource
    rw [hkey] at hsource hlive
    have hstops : requeueStops setup s ref failed.compileKey = false := by
      unfold requeueStops
      simp only [hfind, Option.all_some, herror, hlive, hinh, hsource, Option.isSome_none,
        Bool.not_true, Bool.false_or, Bool.or_false]
      simpa using hretries
    rw [← Option.not_isNone, Bool.not_eq_true', ← Bool.not_eq_true, Option.isNone_iff_eq_none,
      requeued_eq_none_iff, hstops]
    simp

/-! ## When they agree -/

namespace Process

/-- Whether the newest job of a ref and the row that a recovery looks up are alike: equally
retryable when the row can be retried at all, and else the newest job is not retryable. -/
def Alike (setup : Setup) (s : Manager) (ref : PyStr) (newest : JobRow) : Prop :=
  match recoveryRow s.registry ref with
  | none => newest.retries = false
  | some row =>
      if row.stage.terminalError = true ∧ hasLive s row.compileKey = false ∧
          resolves setup s row = true then
        row.retries = newest.retries
      else newest.retries = false

/-- **Status and recover agree exactly when the rows they read are alike.** -/
theorem status_recover_agree_iff {bootToken : PyStr} {labels : List Label} {P : Process}
    {es : List Event}
    (hrun : (machine setup).exec labels (first setup bootToken) = some (P, es))
    {ref : PyStr} {newest : JobRow}
    (hnewest : P.shared.registry.latestJobForRef ref = some newest)
    (hinh : P.shared.registry.state.inhibition = none)
    (verified : List PyStr) (inspection : PyStr → Option Json) (liveKey : Option PyStr) :
    (opensAttempt setup P.shared ref = true ↔
        (projectRef (P.shared.registry.status verified inspection) ref liveKey).retryable =
          true) ↔
      Alike setup P.shared ref newest := by
  have hfresh : Fresh setup P.shared :=
    (machine setup).exec_invariant (I := fun P => Fresh setup P.shared)
      (fun _ _ _ _ h hstep => step_fresh h hstep) (first_fresh bootToken) hrun
  have hcandid : Recorded Candid P.shared := recorded candid_rule hrun
  have hmem : newest ∈ P.shared.registry.jobs := by
    rcases Option.or_eq_some_iff.mp hnewest with h | ⟨-, h⟩
    · exact List.mem_of_mem_filter (List.mem_of_mem_filter (newestBy_mem h))
    · exact List.mem_of_mem_filter (List.mem_of_mem_filter (newestBy_mem h))
  have hview : (projectRef (P.shared.registry.status verified inspection) ref
      liveKey).retryable = newest.retries := by
    rw [← newest.shown_retryable (hcandid newest hmem)]
    simp only [projectRef, Registry.status_latestJob, hnewest, Option.map_some,
      Option.bind_some]
    rfl
  rw [hview, opensAttempt_iff hfresh hcandid hinh]
  unfold Alike
  cases hrow : recoveryRow P.shared.registry ref with
  | none => simp
  | some row =>
      dsimp only
      by_cases hcan : row.stage.terminalError = true ∧
          hasLive P.shared row.compileKey = false ∧ resolves setup P.shared row = true
      · rw [if_pos hcan]
        cases hr : row.retries <;> cases hn : newest.retries <;> simp [hcan, hr]
      · rw [if_neg hcan]
        have hno : ¬∃ found, some row = some found ∧ found.stage.terminalError = true ∧
            hasLive P.shared found.compileKey = false ∧
            resolves setup P.shared found = true ∧ found.retries = true := by
          rintro ⟨found, heq, herror, hlive, hsource, -⟩
          obtain rfl := Option.some.inj heq
          exact hcan ⟨herror, hlive, hsource⟩
        rw [iff_false_left hno, Bool.not_eq_true]

/-- A failed job that is the newest of the ref itself, whose source resolves, is alike. -/
theorem agree_of_own {s : Manager} {ref : PyStr} {newest : JobRow}
    (hnewest : s.registry.latestJobForRef ref = some newest)
    (herror : newest.stage.terminalError = true)
    (hown : s.registry.findJob ref newest.compileKey = some newest)
    (hlive : hasLive s newest.compileKey = false) (hsource : resolves setup s newest = true) :
    Alike setup s ref newest := by
  have hterminal : newest.stage.terminal = true := by
    cases hstage : newest.stage <;> simp_all [Stage.terminal, Stage.terminalError]
  have hfailed : s.registry.terminalRowForRef ref = some newest := by
    rcases Option.or_eq_some_iff.mp hnewest with h | ⟨-, h⟩
    · have := (List.mem_filter.mp (newestBy_mem h)).2
      simp [hterminal] at this
    · have hfilter := newestBy_filter (p := fun j => j.stage.terminalError) h herror
      rw [List.filter_filter, List.filter_filter] at hfilter
      unfold Registry.terminalRowForRef
      rw [← hfilter]
      congr 1
      refine List.filter_congr fun j _ => ?_
      cases hstage : j.stage <;> simp [Stage.terminal, Stage.terminalError]
  have hrow : recoveryRow s.registry ref = some newest := by
    rw [recoveryRow, hfailed]
    exact hown
  unfold Alike
  rw [hrow]
  dsimp only
  rw [if_pos ⟨herror, hlive, hsource⟩]

/-! ## Runs -/

/-- An upload, a local file with the same bytes that joins its job, and the compile fails. -/
def joinedFailure : List Label :=
  sampleUpload ++
    [.start (.prepare (py "local://cam") (py "local") false (.bytes sampleModel .localFile))] ++
    turns 0 10 ++ [.start (.pump 1)] ++ turns 0 18

/-- Whether the newest job of a ref failed, with no inhibition, no live attempt for its key and
a source that resolves. -/
def recoverable (setup : Setup) (s : Manager) (ref : PyStr) : Bool :=
  s.registry.state.inhibition.isNone &&
    (s.registry.latestJobForRef ref).any fun j =>
      j.stage.terminal && !hasLive s j.compileKey && resolves setup s j

/-- The failed upload: status and recover agree. -/
theorem status_recover_agree_failedUpload :
    ∃ P es newest,
      (machine failingSetup).exec failedUpload (first failingSetup (py "boot")) =
        some (P, es) ∧
      P.shared.registry.latestJobForRef (py "zmq-upload:" ++ sampleDigest) = some newest ∧
      ((opensAttempt failingSetup P.shared (py "zmq-upload:" ++ sampleDigest) = true ↔
          (projectRef (P.shared.registry.status [] fun _ => none)
            (py "zmq-upload:" ++ sampleDigest) none).retryable = true) ↔
        Alike failingSetup P.shared (py "zmq-upload:" ++ sampleDigest) newest) := by
  have hends : (machine failingSetup).endsIn failedUpload (first failingSetup (py "boot"))
      (fun P => recoverable failingSetup P.shared (py "zmq-upload:" ++ sampleDigest)) =
        true := by
    decide +kernel
  obtain ⟨P, es, hrun, hgood⟩ := (machine failingSetup).exists_exec_of_endsIn hends
  unfold recoverable at hgood
  rw [Bool.and_eq_true, Option.any_eq_true] at hgood
  obtain ⟨hinh, newest, hnewest, -⟩ := hgood
  exact ⟨P, es, newest, hrun, hnewest,
    status_recover_agree_iff hrun hnewest (Option.isNone_iff_eq_none.mp hinh) _ _ _⟩

/-- The ref that joined: its failure is shown as retryable, and a recovery opens nothing. -/
theorem joined_failure_disagrees :
    ∃ P es, (machine failingSetup).exec joinedFailure (first failingSetup (py "boot")) =
        some (P, es) ∧
      recoverable failingSetup P.shared (py "local://cam") = true ∧
      (projectRef (P.shared.registry.status [] fun _ => none) (py "local://cam")
        none).retryable = true ∧
      opensAttempt failingSetup P.shared (py "local://cam") = false := by
  have hends : (machine failingSetup).endsIn joinedFailure (first failingSetup (py "boot"))
      (fun P => recoverable failingSetup P.shared (py "local://cam") &&
        (projectRef (P.shared.registry.status [] fun _ => none) (py "local://cam")
          none).retryable &&
        !opensAttempt failingSetup P.shared (py "local://cam")) = true := by
    decide +kernel
  obtain ⟨P, es, hrun, hgood⟩ := (machine failingSetup).exists_exec_of_endsIn hends
  simp only [Bool.and_eq_true, Bool.not_eq_true'] at hgood
  exact ⟨P, es, hrun, hgood.1.1, hgood.1.2, hgood.2⟩

end Process

end FrigateXdna
