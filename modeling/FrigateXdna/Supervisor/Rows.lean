import FrigateXdna.Supervisor.Preparation

/-!
# What a turn of a job does to the rows

The programs that advance one job, publish its artifact and record its failure change the
row of that job, add at most one attempt, and leave the other rows alone.

Main results:

- Definition {lit}`KeepsRows`: the rows stay, and those of some jobs keep their stage.
- Theorem {lit}`run_pump`: an advance of a job that is there gives a row.
- Theorem {lit}`run_failJob`: a failed job stands in {lit}`COMPILE_FAILED` with its refs marked.
- Theorem {lit}`run_retryDue`: no exception stops a pump in {lit}`retry_due`.
-/

namespace FrigateXdna

open Python Library

/-! ## Rows that stay -/

/-- A job in a terminal stage. -/
def StandsIn (uuid : PyStr) (stage : Stage) (s : Manager) : Prop :=
  ∃ j ∈ s.registry.jobs, j.uuid = uuid ∧ j.stage = stage

/-- The refs of a job have the state of a stage. -/
def RefsStandIn (uuid : PyStr) (stage : Stage) (s : Manager) : Prop :=
  ∀ ref ∈ s.registry.refsForJob uuid, ∀ m ∈ s.registry.refs, m.ref = ref →
    m.state = stage.text

variable (setup : Setup)

/-- The rows stay under their ids, and those of some jobs keep their stage. -/
structure KeepsRows (quiet : PyStr → Prop) (s t : Manager) : Prop where
  fresh : Fresh setup t
  rows : ∀ j ∈ s.registry.jobs, ∃ j' ∈ t.registry.jobs,
    j'.uuid = j.uuid ∧ (quiet j.uuid → j'.stage = j.stage)

namespace KeepsRows

variable {setup} {quiet : PyStr → Prop} {s t u : Manager}

theorem refl (h : Fresh setup s) : KeepsRows setup quiet s s where
  fresh := h
  rows j hj := ⟨j, hj, rfl, fun _ => rfl⟩

theorem trans (h : KeepsRows setup quiet s t) (h' : KeepsRows setup quiet t u) :
    KeepsRows setup quiet s u where
  fresh := h'.fresh
  rows j hj := by
    obtain ⟨j', hj', huuid, hstage⟩ := h.rows j hj
    obtain ⟨j'', hj'', huuid', hstage'⟩ := h'.rows j' hj'
    refine ⟨j'', hj'', huuid'.trans huuid, fun hq => ?_⟩
    rw [hstage' (huuid ▸ hq), hstage hq]

theorem weaken {quiet' : PyStr → Prop} (h : KeepsRows setup quiet s t)
    (hquiet : ∀ uuid, quiet' uuid → quiet uuid) : KeepsRows setup quiet' s t where
  fresh := h.fresh
  rows j hj := by
    obtain ⟨j', hj', huuid, hstage⟩ := h.rows j hj
    exact ⟨j', hj', huuid, fun hq => hstage (hquiet _ hq)⟩

/-- The same rows. -/
theorem of_jobs (h : Fresh setup t) (hjobs : t.registry.jobs = s.registry.jobs) :
    KeepsRows setup quiet s t where
  fresh := h
  rows j hj := ⟨j, hjobs ▸ hj, rfl, fun _ => rfl⟩

/-- The same rows, with an attempt and failure records. -/
theorem of_grown {new : Option NewJob} (h : Fresh setup t)
    (hgrown : JobManager.Grown setup s t new) : KeepsRows setup quiet s t where
  fresh := h
  rows j hj := by
    have hmem : j.core ∈ t.registry.cores := by
      rw [hgrown]
      exact List.mem_append_left _ (List.mem_map_of_mem hj)
    obtain ⟨j', hj', hcore⟩ := List.mem_map.mp hmem
    have huuid : j'.core.uuid = j.core.uuid := congrArg JobRow.uuid hcore
    have hstage : j'.core.stage = j.core.stage := congrArg JobRow.stage hcore
    exact ⟨j', hj', huuid, fun _ => hstage⟩

/-- A failure record changes no stage. -/
theorem setFailure (h : Fresh setup s) (uuid : PyStr) (record : Failure) :
    KeepsRows setup quiet s ((Stmt.setFailure uuid record).exec setup s) :=
  of_grown (h.stmt _).1 (JobManager.Grown.of_cores (Registry.setFailure_cores _ _ _ _))

/-- A stage changes for one job. -/
theorem setJob (h : Fresh setup s) (uuid : PyStr) (stage : Stage) (code : Option PyStr) :
    KeepsRows setup (· ≠ uuid) s ((Stmt.setJob uuid stage code).exec setup s) where
  fresh := (h.stmt _).1
  rows j hj := by
    refine ⟨_, Registry.mem_modifyJob.mpr ⟨j, hj, rfl⟩, ?_, ?_⟩
    · split_ifs
      · rfl
      · rfl
    · intro hne
      rw [if_neg hne]

/-- The row of a job stays. -/
theorem present (h : KeepsRows setup quiet s t) {uuid : PyStr}
    (hrow : ∃ j ∈ s.registry.jobs, j.uuid = uuid) : ∃ j ∈ t.registry.jobs, j.uuid = uuid := by
  obtain ⟨j, hj, rfl⟩ := hrow
  obtain ⟨j', hj', huuid, -⟩ := h.rows j hj
  exact ⟨j', hj', huuid⟩

/-- So does its stage. -/
theorem standsIn (h : KeepsRows setup quiet s t) {uuid : PyStr} {stage : Stage}
    (hquiet : quiet uuid) (hrow : StandsIn uuid stage s) : StandsIn uuid stage t := by
  obtain ⟨j, hj, rfl, rfl⟩ := hrow
  obtain ⟨j', hj', huuid, hstage⟩ := h.rows j hj
  exact ⟨j', hj', huuid, hstage hquiet⟩

end KeepsRows

/-! ## The parts of a turn -/

section Turn

variable {setup} {s : Manager}

/-- A statement that changes no row of {lit}`jobs`. -/
def Stmt.keepsJobs : Stmt → Bool
  | .createJob _ | .setJob _ _ _ | .setFailure _ _ | .deleteJob _ => false
  | _ => true

theorem Stmt.keepsJobs_exec {a : Stmt} (h : a.keepsJobs = true) (s : Manager) :
    (a.exec setup s).registry.jobs = s.registry.jobs := by
  cases a with
  | createJob row => contradiction
  | setJob uuid stage code => contradiction
  | setFailure uuid record => contradiction
  | deleteJob uuid => contradiction
  | addAlias uuid ref =>
      simp only [Stmt.exec, Registry.addAlias]
      split <;> rfl
  | upsertRef ref kind =>
      simp only [Stmt.exec, Registry.upsertRef]
      split <;> rfl
  | addSource row =>
      simp only [Stmt.exec, Registry.addSource]
      split <;> rfl
  | addArtifact row =>
      simp only [Stmt.exec, Registry.addArtifact]
      split <;> rfl
  | poll uuid dt =>
      simp only [Stmt.exec]
      split <;> rfl
  | _ => rfl

/-- A program that changes no row. -/
abbrev KeepsJobs {β : Type} (p : Prog β) : Prop :=
  p.Only fun a => a.keepsJobs = true

theorem keepsJobs_exec {a : Stmt} (h : a.keepsJobs = true) : KeepsJobs (exec a) :=
  ⟨h, fun _ => trivial⟩

theorem keepsJobs_read {β : Type} (g : Manager → β) : KeepsJobs (read g) :=
  ⟨rfl, fun _ => trivial⟩

theorem KeepsJobs.run {β : Type} {p : Prog β} (h : KeepsJobs p) (hs : Fresh setup s)
    {quiet : PyStr → Prop} : KeepsRows setup quiet s (p.run (Stmt.exec setup) s).1 := by
  have hjobs : (p.run (Stmt.exec setup) s).1.registry.jobs = s.registry.jobs := by
    refine Program.Only.run (I := fun t => t.registry.jobs = s.registry.jobs) ?_ h rfl
    intro a t ha ht
    rw [Stmt.keepsJobs_exec ha, ht]
  have hfresh : Fresh setup (p.run (Stmt.exec setup) s).1 :=
    Program.run_invariant (Stmt.exec setup) (I := Fresh setup) (fun a _ ht => (ht.stmt a).1) p hs
  exact KeepsRows.of_jobs hfresh hjobs

theorem keepsJobs_setRefStates (refs : List PyStr) (state : PyStr) :
    KeepsJobs (setRefStates refs state) :=
  Program.Only.forEach fun _ _ => keepsJobs_exec rfl

theorem keepsJobs_markJobRefs (uuid : PyStr) (stage : Stage) :
    KeepsJobs (markJobRefs uuid stage) :=
  Program.Only.bind (keepsJobs_read _) fun _ => keepsJobs_setRefStates _ _

theorem keepsJobs_markPreparedRefs (key : PyStr) : KeepsJobs (markPreparedRefs key) :=
  Program.Only.bind (keepsJobs_read _) fun _ => keepsJobs_setRefStates _ _

theorem keepsJobs_publishArtifact (key uuid : PyStr) (data : Bytes) (manifest : Json) :
    KeepsJobs (publishArtifact key uuid data manifest) := by
  refine Program.Only.bind (keepsJobs_read _) fun committed => ?_
  split
  · trivial
  · refine Program.Only.bind (keepsJobs_exec rfl) fun _ => ?_
    exact Program.Only.bind (keepsJobs_exec rfl) fun _ => keepsJobs_exec rfl

theorem keepsJobs_publishStaged (job : JobRow) (key : PyStr) :
    KeepsJobs (publishStaged setup job key) := by
  refine Program.Only.bind (keepsJobs_exec rfl) fun _ => ?_
  refine Program.Only.bind (keepsJobs_read _) fun source => ?_
  refine Program.Only.bind (keepsJobs_read _) fun found => ?_
  cases found with
  | none => trivial
  | some backend =>
      dsimp only
      split
      · trivial
      · exact Program.Only.bind (keepsJobs_publishArtifact _ _ _ _) fun _ => keepsJobs_exec rfl

theorem keepsJobs_publishResult (job : JobRow) : KeepsJobs (publishResult setup job) := by
  refine Program.Only.bind (keepsJobs_read _) fun known => ?_
  split
  · trivial
  · refine Program.Only.bind (keepsJobs_read _) fun stray => ?_
    refine Program.Only.bind ?_ fun _ => keepsJobs_publishStaged _ _
    unfold whenever
    split
    · exact keepsJobs_exec rfl
    · trivial

/-- The states of refs after they were set. -/
theorem run_setRefStates (refs : List PyStr) (state : PyStr) (s : Manager) :
    ∃ t, (setRefStates refs state).run (Stmt.exec setup) s = (t, .ok ()) ∧
      t.registry.jobs = s.registry.jobs ∧ t.registry.aliases = s.registry.aliases ∧
      ∀ m ∈ t.registry.refs, (m.ref ∈ refs → m.state = state) ∧
        (m.ref ∉ refs → m ∈ s.registry.refs) := by
  induction refs generalizing s with
  | nil => exact ⟨s, rfl, rfl, rfl, fun m hm => ⟨fun h => absurd h List.not_mem_nil, fun _ => hm⟩⟩
  | cons ref rest ih =>
      obtain ⟨t, hrun, hjobs, haliases, hrefs⟩ := ih ((Stmt.setRefState ref state).exec setup s)
      refine ⟨t, hrun, hjobs, haliases, fun m hm => ?_⟩
      obtain ⟨hin, hout⟩ := hrefs m hm
      by_cases hrest : m.ref ∈ rest
      · exact ⟨fun _ => hin hrest, fun h => absurd (List.mem_cons_of_mem ref hrest) h⟩
      · obtain ⟨old, hold, hm'⟩ := List.mem_map.mp (hout hrest)
        by_cases href : old.ref = ref
        · rw [if_pos href] at hm'
          subst hm'
          exact ⟨fun _ => rfl, fun h => absurd (href ▸ List.mem_cons_self) h⟩
        · rw [if_neg href] at hm'
          subst hm'
          refine ⟨fun h => ?_, fun _ => hold⟩
          rcases List.mem_cons.mp h with heq | hmem
          · exact absurd heq href
          · exact absurd hmem hrest

/-- The refs of a job are marked. -/
theorem run_markJobRefs (h : Fresh setup s) (uuid : PyStr) (stage : Stage)
    (quiet : PyStr → Prop) :
    ∃ t, (markJobRefs uuid stage).run (Stmt.exec setup) s = (t, .ok ()) ∧
      KeepsRows setup quiet s t ∧ RefsStandIn uuid stage t := by
  obtain ⟨t, hrun, hjobs, haliases, hrefs⟩ :
      ∃ t, (markJobRefs uuid stage).run (Stmt.exec setup) s = (t, .ok ()) ∧ _ :=
    run_setRefStates (s.registry.refsForJob uuid) stage.text s
  have hkeeps : KeepsRows setup quiet s _ := (keepsJobs_markJobRefs uuid stage).run h
  rw [hrun] at hkeeps
  refine ⟨t, hrun, hkeeps, ?_⟩
  intro ref href m hm hmref
  have hsame : t.registry.refsForJob uuid = s.registry.refsForJob uuid := by
    rw [Registry.refsForJob, Registry.refsForJob, hjobs, haliases]
  rw [hsame, ← hmref] at href
  exact (hrefs m hm).1 href

/-- A terminal stage is recorded. -/
theorem run_recordTerminal (h : Fresh setup s) {uuid : PyStr}
    (hrow : ∃ j ∈ s.registry.jobs, j.uuid = uuid) (stage : Stage) (code : Option PyStr)
    (detail text : PyStr) :
    ∃ record row, (JobManager.recordTerminal uuid stage code detail text).run
        (Stmt.exec setup) s = ((Stmt.setFailure uuid record).exec setup s, .ok row) := by
  obtain ⟨job, hjob, rfl⟩ := hrow
  let record := newRecord s.memlockAdequate stage code detail job.attempt s.now
    ((job.failure.bind Failure.history).getD []) text
  have hkeeps : KeepsRows setup (fun _ => True) s
      ((Stmt.setFailure job.uuid record).exec setup s) := KeepsRows.setFailure h _ _
  obtain ⟨row, hrow, huuid⟩ := hkeeps.present ⟨job, hjob, rfl⟩
  have hagain := JobManager.run_someJob hkeeps.fresh hrow
  rw [huuid] at hagain
  refine ⟨record, row, ?_⟩
  unfold JobManager.recordTerminal
  rw [Program.run_bind_of_ok _ (JobManager.run_someJob h hjob)]
  exact hagain

/-- **A failed job** stands in {lit}`COMPILE_FAILED` with its refs marked. -/
theorem run_failJob (h : Fresh setup s) {uuid : PyStr}
    (hrow : ∃ j ∈ s.registry.jobs, j.uuid = uuid) (e : FxdnaError) :
    ∃ t, (failJob uuid e).run (Stmt.exec setup) s = (t, .ok ()) ∧
      KeepsRows setup (· ≠ uuid) s t ∧ StandsIn uuid .compileFailed t ∧
      RefsStandIn uuid .compileFailed t := by
  have hset : KeepsRows setup (· ≠ uuid) s
      ((Stmt.setJob uuid .compileFailed (some e.errorCode)).exec setup s) :=
    KeepsRows.setJob h _ _ _
  have hstands : StandsIn uuid .compileFailed
      ((Stmt.setJob uuid .compileFailed (some e.errorCode)).exec setup s) := by
    obtain ⟨j, hj, huuid⟩ := hrow
    refine ⟨_, Registry.mem_modifyJob.mpr ⟨j, hj, rfl⟩, ?_, ?_⟩
    · rw [if_pos huuid]
      exact huuid
    · rw [if_pos huuid]
  obtain ⟨record, row, hrecord⟩ := run_recordTerminal hset.fresh (hset.present hrow)
    .compileFailed (some e.errorCode) e.message []
  have hkeeps : KeepsRows setup (fun _ => True) _ _ := KeepsRows.setFailure hset.fresh uuid record
  obtain ⟨t, hmark, hlast, hrefs⟩ := run_markJobRefs hkeeps.fresh uuid .compileFailed
    fun _ => True
  refine ⟨t, ?_, ?_, ?_, hrefs⟩
  · unfold failJob
    rw [Program.run_bind, run_exec]
    dsimp only
    rw [Program.run_bind_of_ok _ hrecord, hmark]
  · exact hset.trans ((hkeeps.trans hlast).weaken fun _ _ => trivial)
  · exact (hkeeps.trans hlast).standsIn trivial hstands

/-- An advance of a job that is there gives a row. -/
theorem run_pump (h : Fresh setup s) {uuid : PyStr}
    (hrow : ∃ j ∈ s.registry.jobs, j.uuid = uuid) (dt : Int) :
    ∃ t job, (JobManager.pump setup uuid dt).run (Stmt.exec setup) s = (t, .ok job) ∧
      KeepsRows setup (· ≠ uuid) s t := by
  obtain ⟨j, hj, rfl⟩ := hrow
  unfold JobManager.pump
  rw [Program.run_bind, run_read]
  dsimp only
  cases hbackend : s.backends.lookup j.uuid with
  | none =>
      dsimp only
      rw [Program.run_bind, run_read, h.getJob hj]
      exact ⟨s, j, rfl, KeepsRows.refl h⟩
  | some backend =>
      dsimp only
      rw [Program.run_bind, run_read]
      dsimp only
      let polled := (Stmt.poll j.uuid dt).exec setup s
      let stage := (backend.poll dt).state
      let code := if stage.terminalError then some stage.text else none
      let set := (Stmt.setJob j.uuid stage code).exec setup polled
      have hpolled : KeepsRows setup (· ≠ j.uuid) s polled :=
        KeepsRows.of_jobs (h.stmt _).1 (Stmt.keepsJobs_exec rfl s)
      have hset : KeepsRows setup (· ≠ j.uuid) s set :=
        hpolled.trans (KeepsRows.setJob hpolled.fresh _ _ _)
      obtain ⟨job, hjob, huuid⟩ := hset.present ⟨j, hj, rfl⟩
      have hsome := JobManager.run_someJob hset.fresh hjob
      rw [huuid] at hsome
      have hpoll : (JobManager.pollBackend j.uuid dt backend).run (Stmt.exec setup) s =
          (polled, .ok (backend.poll dt)) := by
        simp [JobManager.pollBackend, polled, hbackend]
      rw [Program.run_bind_of_ok _ hpoll, Program.run_bind, run_exec]
      dsimp only
      rw [Program.run_bind_of_ok _ hsome]
      split_ifs with hfinish
      · obtain ⟨record, row, hrecord⟩ := run_recordTerminal hset.fresh ⟨job, hjob, huuid⟩
          job.stage job.errorCode (backend.poll dt).evidence.1 (backend.poll dt).evidence.2
        have hrecorded : KeepsRows setup (· ≠ j.uuid) s
            ((Stmt.setFailure j.uuid record).exec setup set) :=
          hset.trans (KeepsRows.setFailure hset.fresh _ _)
        obtain ⟨t, r, hresume, hgrown⟩ := JobManager.run_maybeResume hrecorded.fresh row.ref
          row.compileKey row false {}
        have hfresh := Program.run_invariant (Stmt.exec setup) (I := Fresh setup)
          (fun a _ ht => (ht.stmt a).1)
          (JobManager.maybeResume setup row.ref row.compileKey row false {}) hrecorded.fresh
        rw [hresume] at hfresh
        refine ⟨t, r.getD row, ?_, hrecorded.trans (KeepsRows.of_grown hfresh hgrown)⟩
        unfold JobManager.finishTerminal
        rw [Program.run_bind_of_ok _ hrecord, Program.run_bind_of_ok _ hresume]
        cases r with
        | none => rfl
        | some new => rfl
      · exact ⟨set, job, rfl, hset⟩

/-- The jobs that are due are resumed, and no exception stops the pump there. -/
theorem run_retryDue (h : Fresh setup s) :
    ∃ t, (retryDue setup).run (Act.exec setup) s = (t, .ok ()) ∧
      KeepsRows setup (fun _ => True) s t := by
  have hone : ∀ row : JobRow, ∀ u, KeepsRows setup (fun _ => True) s u →
      ∃ t, ((do
        let _ ← atomically setup (.resume row.uuid row.ref row.compileKey)
          (JobManager.resumeRow setup row.uuid row.ref row.compileKey)
        return ()) : ThreadProg Unit).run (Act.exec setup) u = (t, .ok ()) ∧
          KeepsRows setup (fun _ => True) s t ∧ True ∧ ∀ y : JobRow, True → True := by
    intro row u hu
    refine ⟨Act.exec setup (.resume row.uuid row.ref row.compileKey) u, ?_, ?_, trivial,
      fun _ _ => trivial⟩
    · have hok : ∃ r, (transaction setup
          (JobManager.resumeRow setup row.uuid row.ref row.compileKey) u).2 = .ok r := by
        unfold transaction JobManager.resumeRow
        rw [Program.run_bind, run_read]
        dsimp only
        cases u.registry.getJob row.uuid with
        | none => exact ⟨none, rfl⟩
        | some full =>
            obtain ⟨t, r, hrun, -⟩ := JobManager.run_maybeResume hu.fresh row.ref row.compileKey
              full setup.fakeCompile.deviceRequired {}
            dsimp only
            rw [hrun]
            exact ⟨r, rfl⟩
      obtain ⟨r, hok⟩ := hok
      rw [Program.run_bind, atomically, Program.run_act, hok]
      rfl
    · exact hu.trans (KeepsRows.of_grown (hu.fresh.act _)
        (JobManager.exec_resume_grown hu.fresh _ _ _))
  obtain ⟨t, hrun, hkept, -⟩ := Program.run_forEach (Act.exec setup)
    (T := fun _ _ => True)
    (s.registry.jobs.filter fun j => j.stage.terminalError && j.failure.isSome) _
    (fun row _ => hone row) (KeepsRows.refl h)
  exact ⟨t, hrun, hkept⟩

end Turn

end FrigateXdna
