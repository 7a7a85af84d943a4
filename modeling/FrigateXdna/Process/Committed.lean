import FrigateXdna.Process

/-!
# Prepared jobs and committed artifacts

The job manager writes the stage that a backend reports, {lit}`PREPARED` among them,
before the supervisor publishes the artifact.  A reader in between, or a crash, finds a
prepared job without an artifact, and a publication that fails rewrites the row.  Until a
success is recorded that way there is no artifact at all: a cache hit needs a committed one,
a repair adopts what a publication left, and a publication follows a recorded success.

Main results:

- Theorem {lit}`Task.stays`: until a success is recorded, every task leaves the data dir
  without prepared jobs and without artifacts.
- Theorem {lit}`prepared_committed_iff`: a run keeps every prepared job committed, and rewrites
  none to a failure, exactly when no step of it records the success of a job with a key.
-/

namespace FrigateXdna

open Python Library JobManager

/-! ## The rule -/

/-- A row that names a key and stands in {lit}`PREPARED`. -/
def JobRow.PreparedFor (j : JobRow) (key : PyStr) : Prop :=
  j.stage = .prepared ∧ j.compileKey = some key ∧ key ≠ []

/-- A prepared job has a committed artifact, unless that was invalidated since. -/
def PreparedCommitted (s : Manager) : Prop :=
  ∀ j ∈ s.registry.jobs, ∀ key, j.PreparedFor key →
    s.committed key = true ∨ j.uuid ∈ s.excused

/-- A row is not prepared for any key. -/
def JobRow.Unprepared (j : JobRow) : Prop :=
  ∀ key, ¬j.PreparedFor key

/-- An unprepared row that stands in {lit}`PREPARED` has no key. -/
theorem JobRow.Unprepared.key_isEmpty {j : JobRow} (h : j.Unprepared)
    (hstage : j.stage = .prepared) : (j.compileKey.getD []).isEmpty = true := by
  cases hkey : j.compileKey with
  | none => rfl
  | some key =>
      by_contra hne
      exact h key ⟨hstage, hkey, by simpa using hne⟩

variable {setup : Setup} {s t : Manager}

/-! ## Before the first success -/

/-- No row is prepared for a key, and there are no artifacts. -/
structure Unpublished (s : Manager) : Prop where
  rows : ∀ j ∈ s.registry.jobs, j.Unprepared
  artifacts : s.registry.artifacts = []
  dirs : s.disk.artifacts.keys = []

/-- Without prepared rows every prepared row is committed. -/
theorem Unpublished.committed (h : Unpublished s) : PreparedCommitted s :=
  fun j hj key hp => absurd hp (h.rows j hj key)

/-- No new prepared row, and the same artifacts. -/
theorem Unpublished.of_rows (h : Unpublished s)
    (hrows : ∀ j ∈ t.registry.jobs, ∀ key, j.PreparedFor key →
      ∃ old ∈ s.registry.jobs, old.PreparedFor key)
    (hartifacts : t.registry.artifacts = s.registry.artifacts)
    (hdisk : t.disk.artifacts = s.disk.artifacts) : Unpublished t where
  rows j hj key hp := by
    obtain ⟨old, hold, hp'⟩ := hrows j hj key hp
    exact h.rows old hold key hp'
  artifacts := hartifacts.trans h.artifacts
  dirs := by rw [hdisk, h.dirs]

/-- The same rows and the same artifacts. -/
theorem Unpublished.same (h : Unpublished s) (hjobs : t.registry.jobs = s.registry.jobs)
    (hartifacts : t.registry.artifacts = s.registry.artifacts)
    (hdisk : t.disk.artifacts = s.disk.artifacts) : Unpublished t :=
  h.of_rows (fun j hj _ hp => ⟨j, hjobs ▸ hj, hp⟩) hartifacts hdisk

/-- A row that changes in its failure record, or takes another stage than {lit}`PREPARED`. -/
theorem Unpublished.modify (h : Unpublished s) (uuid : PyStr) (f : JobRow → JobRow)
    (hf : ∀ j key, (f j).PreparedFor key → j.PreparedFor key)
    (hregistry : t.registry = s.registry.modifyJob uuid f)
    (hdisk : t.disk.artifacts = s.disk.artifacts) : Unpublished t := by
  refine h.of_rows (fun j hj key hp => ?_) (by rw [hregistry]; rfl) hdisk
  rw [hregistry] at hj
  obtain ⟨old, hold, rfl⟩ := Registry.mem_modifyJob.mp hj
  refine ⟨old, hold, ?_⟩
  split at hp
  · exact hf old key hp
  · exact hp

/-- The statements that record a success, or an artifact. -/
def Stmt.commits : Stmt → Bool
  | .setJob _ .prepared _ | .addArtifact _ | .commitStaged _ _ => true
  | _ => false

/-- The statements of the job manager's transactions commit nothing. -/
theorem not_commits_of_ofJobs {a : Stmt} (h : a.ofJobs = true) : a.commits = false := by
  cases a <;> first | rfl | contradiction

/-- Nor do those of a repair of rows. -/
theorem not_commits_of_ofRepair {a : Stmt} (h : a.ofRepair = true) : a.commits = false := by
  cases a with
  | setJob uuid stage errorCode => cases stage <;> first | rfl | contradiction
  | _ => first | rfl | contradiction

/-- **The other statements publish nothing.** -/
theorem unpublished_exec {a : Stmt} (ha : a.commits = false) (h : Unpublished s) :
    Unpublished (a.exec setup s) := by
  cases a with
  | createJob row =>
      refine h.of_rows (fun j hj key hp => ?_) rfl rfl
      rcases List.mem_append.mp hj with hold | hnew
      · exact ⟨j, hold, hp⟩
      · obtain rfl := List.mem_singleton.mp hnew
        exact absurd hp.1 (by simp)
  | setJob uuid stage errorCode =>
      refine h.modify uuid
        (fun j => { j with stage, errorCode, progress := none, updatedAt := s.now })
        (fun j key hp => ?_) rfl rfl
      obtain rfl : stage = .prepared := hp.1
      contradiction
  | setFailure uuid record =>
      exact h.modify uuid (fun j => { j with failure := some record, updatedAt := s.now })
        (fun _ _ hp => hp) rfl rfl
  | deleteJob uuid =>
      exact h.of_rows (fun j hj _ hp => ⟨j, (List.mem_filter.mp hj).1, hp⟩) rfl rfl
  | deleteArtifact key =>
      refine ⟨h.rows, ?_, h.dirs⟩
      simp [Stmt.exec, Registry.deleteArtifact, h.artifacts]
  | moveArtifact key invalidated =>
      refine ⟨h.rows, h.artifacts, ?_⟩
      simp [Stmt.exec, Disk.moveArtifact, AList.keys_erase, h.dirs]
  | addAlias uuid ref =>
      simp only [Stmt.exec, Registry.addAlias]
      split <;> exact h.same rfl rfl rfl
  | upsertRef ref kind =>
      simp only [Stmt.exec, Registry.upsertRef]
      split <;> exact h.same rfl rfl rfl
  | addSource row =>
      simp only [Stmt.exec, Registry.addSource]
      split <;> exact h.same rfl rfl rfl
  | poll uuid dt =>
      simp only [Stmt.exec]
      split <;> exact h.same rfl rfl rfl
  | stageModel uuid data =>
      simp only [Stmt.exec, Disk.stageModel]
      split <;> exact h.same rfl rfl rfl
  | stageManifest uuid manifest =>
      simp only [Stmt.exec, Disk.stageManifest]
      split <;> exact h.same rfl rfl rfl
  | addArtifact row => contradiction
  | commitStaged uuid key => contradiction
  | _ => exact h.same rfl rfl rfl

/-- **A transaction publishes nothing.** -/
theorem unpublished_transaction {a : Act} (ha : ∀ b, a ≠ .stmt b) (h : Unpublished s) :
    Unpublished (a.exec setup s) :=
  Act.transaction_invariant (fun _ _ hb ht => unpublished_exec (not_commits_of_ofJobs hb) ht)
    (fun _ _ hs hs' => ⟨hs.rows, hs.artifacts, hs'.dirs⟩) ha h

/-- Outside events publish nothing. -/
theorem unpublished_happen {e : Outside} (h : Unpublished s)
    (he : e.happen setup s = some t) : Unpublished t := by
  obtain ⟨⟨state, hstate⟩, hartifacts, -⟩ := Outside.happen_kept he
  exact h.same (by rw [hstate]) (by rw [hstate]) hartifacts

/-! ## Programs that publish nothing -/

/-- What a thread does before the first success: it publishes nothing, or it advances jobs and
records that first success. -/
def Tame (setup : Setup) (task : Task) (s : Manager) (a : Act) : Prop :=
  (task.pumps = true ∧ ∃ uuid errorCode, a = .stmt (.setJob uuid .prepared errorCode)) ∨
    Unpublished (a.exec setup s)

variable {task : Task}

/-- A program of statements of a tame thread. -/
abbrev Stays {β : Type} (setup : Setup) (task : Task) (p : Prog β) (Q : β → Prop)
    (s : Manager) : Prop :=
  p.Safe (Stmt.exec setup) (.within Unpublished) (fun s a => Tame setup task s (.stmt a))
    (fun _ => Q) s

theorem stays_ret {β : Type} {b : β} {Q : β → Prop} (h : Q b) :
    Stays setup task (.ret b) Q s :=
  fun _ _ _ => h

theorem stays_read {β : Type} {f : Manager → β} {Q : β → Prop}
    (h : ∀ t, Unpublished t → Q (f t)) : Stays setup task (read f) Q s :=
  fun t _ ht => ⟨Or.inr ht, fun _ _ _ => h t ht⟩

/-- A program of statements that commit nothing. -/
theorem stays_of_only {β : Type} {p : Prog β} (h : p.Only fun a => a.commits = false) :
    Stays setup task p (fun _ => True) s := by
  induction p generalizing s with
  | ret b => exact fun _ _ _ => trivial
  | raise e => trivial
  | act a k ih => exact fun t _ ht => ⟨Or.inr (unpublished_exec h.1 ht), ih t (h.2 t)⟩

theorem stays_of_onlyJobs {β : Type} {p : Prog β} (h : OnlyJobs p) :
    Stays setup task p (fun _ => True) s :=
  stays_of_only (h.weaken fun _ => not_commits_of_ofJobs)

theorem stays_of_repairsRows {β : Type} {p : Prog β} (h : RepairsRows p) :
    Stays setup task p (fun _ => True) s :=
  stays_of_only (h.weaken fun _ => not_commits_of_ofRepair)

theorem stays_exec {a : Stmt} (h : a.commits = false) :
    Stays setup task (exec a) (fun _ => True) s :=
  stays_of_only ⟨h, fun _ => trivial⟩

theorem stays_whenever {c : Bool} {a : Stmt} (h : a.commits = false) :
    Stays setup task (whenever c (exec a)) (fun _ => True) s := by
  unfold whenever
  split
  · exact stays_exec h
  · exact stays_ret trivial

/-- The thread that advances jobs writes any stage. -/
theorem stays_setJob (hpumps : task.pumps = true) (uuid : PyStr) (stage : Stage)
    (errorCode : Option PyStr) :
    Stays setup task (exec (.setJob uuid stage errorCode)) (fun _ => True) s := by
  by_cases hstage : stage = .prepared
  · subst hstage
    exact fun t _ _ => ⟨Or.inl ⟨hpumps, uuid, errorCode, rfl⟩, fun _ _ _ => trivial⟩
  · exact stays_exec (by cases stage <;> first | rfl | contradiction)

/-- A row that is read is not prepared for a key. -/
theorem stays_getJob (uuid : PyStr) :
    Stays setup task (read fun s => s.registry.getJob uuid)
      (fun found => ∀ job, found = some job → job.Unprepared) s :=
  stays_read fun _ ht job hjob => ht.rows job (List.mem_of_find?_eq_some hjob)

theorem stays_someJob (uuid : PyStr) :
    Stays setup task (someJob uuid) JobRow.Unprepared s := by
  refine Program.Safe.bind (stays_getJob uuid) fun found t _ hfound => ?_
  cases found with
  | none => trivial
  | some job => exact stays_ret (hfound job rfl)

theorem stays_recordTerminal (uuid : PyStr) (stage : Stage) (errorCode : Option PyStr)
    (detail errorText : PyStr) :
    Stays setup task (recordTerminal uuid stage errorCode detail errorText)
      JobRow.Unprepared s := by
  refine Program.Safe.bind (stays_someJob uuid) fun job t _ _ => ?_
  refine Program.Safe.bind (stays_of_onlyJobs (onlyJobs_read _)) fun record t _ _ => ?_
  exact Program.Safe.bind (stays_exec rfl) fun _ t _ _ => stays_someJob uuid

/-! ## The job manager -/

section JobManager

/-- What may be returned for a new attempt. -/
abbrev NewUnprepared (new : Option JobRow) : Prop :=
  ∀ job, new = some job → job.Unprepared

theorem stays_none : Stays setup task (.ret none) NewUnprepared s :=
  stays_ret fun job hjob => by contradiction

theorem stays_some {job : JobRow} (h : job.Unprepared) :
    Stays setup task (.ret (some job)) NewUnprepared s :=
  stays_ret fun _ hjob => Option.some.inj hjob ▸ h

theorem stays_newAttempt (ref : PyStr) (key : Option PyStr) (prev : Failure) (held : Bool)
    (extra : Extra) (prevUuid : PyStr) (sourceSha256 : Option PyStr) :
    Stays setup task (newAttempt setup ref key prev held extra prevUuid sourceSha256)
      NewUnprepared s := by
  refine Program.Safe.bind (stays_of_onlyJobs (onlyJobs_newRow setup _)) fun uuid t _ _ => ?_
  refine Program.Safe.bind (stays_exec rfl) fun _ t _ _ => ?_
  refine Program.Safe.bind (stays_of_onlyJobs (onlyJobs_carryAliases uuid ref prevUuid))
    fun _ t _ _ => ?_
  refine Program.Safe.bind (stays_of_onlyJobs (onlyJobs_spawnBackend setup uuid _ prevUuid))
    fun ok t _ _ => ?_
  split
  · refine Program.Safe.bind (stays_exec rfl) fun _ t _ _ => ?_
    exact Program.Safe.bind (stays_someJob uuid) fun job t _ hjob => stays_some hjob
  · exact stays_none

theorem stays_maybeResume (ref : PyStr) (key : Option PyStr) (failed : JobRow) (held : Bool)
    (extra : Extra) :
    Stays setup task (maybeResume setup ref key failed held extra) NewUnprepared s := by
  refine Program.Safe.bind (stays_of_onlyJobs (onlyJobs_read _)) fun live t _ _ => ?_
  split
  · exact stays_none
  · refine Program.Safe.bind (stays_of_onlyJobs (onlyJobs_read _)) fun inhibited t _ _ => ?_
    split
    · exact stays_none
    · split
      · exact stays_none
      · refine Program.Safe.bind (stays_of_onlyJobs (onlyJobs_read _)) fun eligible t _ _ => ?_
        split
        · refine Program.Safe.bind (stays_newAttempt _ _ _ _ _ _ _) fun new t _ hnew => ?_
          cases new with
          | none => exact stays_none
          | some new =>
              exact Program.Safe.bind (stays_exec rfl) fun _ t _ _ => stays_some (hnew new rfl)
        · exact stays_none

theorem stays_finishTerminal (uuid : PyStr) (backend : Backend) (job : JobRow) :
    Stays setup task (finishTerminal setup uuid backend job) JobRow.Unprepared s := by
  refine Program.Safe.bind (stays_recordTerminal uuid _ _ _ _) fun job t _ hjob => ?_
  refine Program.Safe.bind (stays_maybeResume _ _ _ _ _) fun new t _ hnew => ?_
  cases new with
  | none => exact stays_ret hjob
  | some new => exact stays_ret (hnew new rfl)

/-- **A pump** writes what its backend reports, and returns no prepared row before that. -/
theorem stays_pump (hpumps : task.pumps = true) (uuid : PyStr) (dt : Int) :
    Stays setup task (JobManager.pump setup uuid dt) JobRow.Unprepared s := by
  refine Program.Safe.bind (stays_of_onlyJobs (onlyJobs_read _)) fun found t _ _ => ?_
  cases found with
  | none =>
      refine Program.Safe.bind (stays_getJob uuid) fun found t _ hfound => ?_
      cases found with
      | none => trivial
      | some job => exact stays_ret (hfound job rfl)
  | some backend =>
      refine Program.Safe.bind (stays_of_onlyJobs (onlyJobs_read _)) fun prev t _ _ => ?_
      refine Program.Safe.bind (stays_of_only (p := pollBackend uuid dt backend)
        ⟨rfl, fun _ => trivial⟩) fun backend t _ _ => ?_
      refine Program.Safe.bind (stays_setJob hpumps uuid _ _) fun _ t _ _ => ?_
      refine Program.Safe.bind (stays_someJob uuid) fun job t _ hjob => ?_
      split
      · exact stays_finishTerminal uuid backend job
      · exact stays_ret hjob

end JobManager

/-! ## The supervisor -/

theorem stays_setRefStates (refs : List PyStr) (state : PyStr) :
    Stays setup task (setRefStates refs state) (fun _ => True) s :=
  stays_of_onlyJobs (Program.Only.forEach fun _ _ => onlyJobs_exec rfl)

theorem stays_markJobRefs (uuid : PyStr) (stage : Stage) :
    Stays setup task (markJobRefs uuid stage) (fun _ => True) s :=
  Program.Safe.bind (stays_of_onlyJobs (onlyJobs_read _)) fun refs _ _ _ =>
    stays_setRefStates refs stage.text

theorem stays_failJob (uuid : PyStr) (e : FxdnaError) :
    Stays setup task (failJob uuid e) (fun _ => True) s := by
  refine Program.Safe.bind (stays_exec rfl) fun _ t _ _ => ?_
  refine Program.Safe.bind (stays_recordTerminal uuid _ _ _ _) fun _ t _ _ => ?_
  exact stays_markJobRefs uuid _

theorem stays_pumpOne (hpumps : task.pumps = true) (uuid : PyStr) (dt : Int) :
    Stays setup task (pumpOne setup uuid dt) (fun _ => True) s := by
  refine Program.Safe.bind (stays_pump hpumps uuid dt).attempt fun r t _ hr => ?_
  split
  · exact stays_failJob uuid _
  · trivial
  · rename_i job
    split
    · exact stays_markJobRefs uuid _
    · split
      · rename_i hstage
        unfold pumpPrepared
        dsimp only
        rw [if_pos ((hr job rfl).key_isEmpty (by simpa using hstage))]
        exact stays_exec rfl
      · exact stays_ret trivial

theorem stays_waitStep (uuid : PyStr) (dt : Int) {pumping : Bool}
    (hpumps : pumping = true → task.pumps = true) :
    Stays setup task (waitStep setup uuid dt pumping) (fun _ => True) s := by
  have hjob : Stays setup task (waitedJob setup uuid dt pumping) JobRow.Unprepared s := by
    unfold waitedJob
    split
    · exact stays_pump (hpumps ‹_›) uuid dt
    · refine Program.Safe.bind (stays_getJob uuid) fun found t _ hfound => ?_
      cases found with
      | none => trivial
      | some job => exact stays_ret (hfound job rfl)
  refine Program.Safe.bind hjob fun job t _ hopen => ?_
  dsimp only
  split
  · rename_i hstage
    unfold waitPrepared
    dsimp only
    rw [if_pos (hopen.key_isEmpty (by simpa using hstage))]
    exact stays_exec rfl
  · split
    · exact stays_markJobRefs _ _
    · exact stays_ret trivial

/-- **A start adopts nothing**, as there is no directory to adopt. -/
theorem stays_construct : Stays setup task (construct setup) (fun _ => True) s := by
  have hrecover : Stays setup task (recover setup) (fun _ => True) s := by
    refine Program.Safe.bind (stays_of_onlyJobs (onlyJobs_read _)) fun work t _ _ => ?_
    refine Program.Safe.bind (Program.Safe.forEach fun uuid _ t _ =>
      stays_of_repairsRows (repairsRows_recoverWork uuid)) fun _ t _ _ => ?_
    refine Program.Safe.bind (stays_of_onlyJobs (onlyJobs_read _)) fun staged t _ _ => ?_
    refine Program.Safe.bind (Program.Safe.forEach fun _ _ _ _ => stays_exec rfl)
      fun _ t _ _ => ?_
    refine Program.Safe.bind (Q := fun _ keys => keys = []) (stays_read fun _ ht => ht.dirs)
      fun keys t _ hkeys => ?_
    subst hkeys
    exact stays_ret trivial
  exact Program.Safe.bind hrecover fun _ t _ _ => stays_of_repairsRows repairsRows_reconcileJobs

/-! ## Threads -/

/-- A thread that is tame from a state on. -/
abbrev StaysThread {β : Type} (setup : Setup) (task : Task) (p : ThreadProg β) (Q : β → Prop)
    (s : Manager) : Prop :=
  p.Safe (Act.exec setup) (.within Unpublished) (Tame setup task) (fun _ => Q) s

theorem staysThread_spread {β : Type} {p : Prog β} {Q : β → Prop}
    (h : Stays setup task p Q s) : StaysThread setup task (spread p) Q s :=
  Program.Safe.relabel (f := Act.stmt) (fun _ _ => rfl) (fun _ _ ha => ha) h

theorem staysThread_ret {β : Type} {b : β} {Q : β → Prop} (h : Q b) :
    StaysThread setup task (.ret b) Q s :=
  fun _ _ _ => h

theorem staysThread_read {β : Type} {f : Manager → β} {Q : β → Prop}
    (h : ∀ t, Unpublished t → Q (f t)) : StaysThread setup task (spread (read f)) Q s :=
  staysThread_spread (stays_read h)

theorem staysThread_look {β : Type} {f : Manager → β} :
    StaysThread setup task (spread (read f)) (fun _ => True) s :=
  staysThread_read fun _ _ => trivial

theorem staysThread_exec {a : Stmt} (h : a.commits = false) :
    StaysThread setup task (spread (exec a)) (fun _ => True) s :=
  staysThread_spread (stays_exec h)

theorem staysThread_atomically {β : Type} {a : Act} {p : Prog β} (ha : ∀ b, a ≠ .stmt b) :
    StaysThread setup task (atomically setup a p) (fun _ => True) s := by
  refine fun t _ ht => ⟨Or.inr (unpublished_transaction ha ht), ?_⟩
  dsimp only
  split
  · exact staysThread_ret trivial
  · trivial

theorem staysThread_submitCompile (ref digest key serving : PyStr) (origin : Origin) :
    StaysThread setup task (submitCompile setup ref digest key serving origin)
      (fun _ => True) s := by
  refine Program.Safe.bind staysThread_look fun space t _ _ => ?_
  split
  · refine Program.Safe.bind (staysThread_atomically (by simp)) fun job t _ _ => ?_
    exact Program.Safe.bind (staysThread_exec rfl) fun _ _ _ _ => staysThread_ret trivial
  · trivial

/-- **No cache hit** without an artifact. -/
theorem staysThread_hitOrSubmit (ref digest key serving : PyStr) (origin : Origin) :
    StaysThread setup task (hitOrSubmit setup ref digest key serving origin)
      (fun _ => True) s := by
  refine Program.Safe.bind (Q := fun _ found => found = false)
    (staysThread_read fun t ht => by simp [Registry.getArtifact, ht.artifacts])
    fun found t _ hfound => ?_
  rw [hfound, if_neg (by simp)]
  exact staysThread_submitCompile ref digest key serving origin

theorem staysThread_ingestBytes (data : Bytes) (fileName : PyStr) :
    StaysThread setup task (ingestBytes setup data fileName) (fun _ => True) s := by
  refine Program.Safe.bind staysThread_look fun stored t _ _ => ?_
  cases stored with
  | none => exact staysThread_exec rfl
  | some stored =>
      dsimp only
      split
      · exact staysThread_ret trivial
      · trivial

theorem staysThread_ingestSource (ref : PyStr) (data : Bytes) (origin : Origin)
    (inspected : Json) (refresh : Bool) :
    StaysThread setup task (ingestSource setup ref data origin inspected refresh)
      (fun _ => True) s := by
  refine Program.Safe.bind staysThread_look fun moved t _ _ => ?_
  split
  · exact Program.Safe.bind (staysThread_exec rfl) fun _ _ _ _ => trivial
  · refine Program.Safe.bind (staysThread_ingestBytes data _) fun _ t _ _ => ?_
    refine Program.Safe.bind (staysThread_exec rfl) fun _ t _ _ => ?_
    refine Program.Safe.bind (staysThread_exec rfl) fun _ t _ _ => ?_
    split
    · exact staysThread_ret trivial
    · split
      · trivial
      · exact staysThread_hitOrSubmit _ _ _ _ _

theorem staysThread_inspectChecked (ref : PyStr) (data : Bytes) :
    StaysThread setup task (inspectChecked setup ref data) (fun _ => True) s := by
  unfold inspectChecked
  split
  · exact Program.Safe.bind (staysThread_exec rfl) fun _ _ _ _ => trivial
  · trivial
  · exact Program.Safe.bind (staysThread_exec rfl) fun _ _ _ _ => staysThread_ret trivial

theorem staysThread_prepare (ref kind : PyStr) (refresh : Bool) (acquired : Acquired) :
    StaysThread setup task (prepare setup ref kind refresh acquired) (fun _ => True) s := by
  refine Program.Safe.bind (staysThread_exec rfl) fun _ t _ _ => ?_
  refine Program.Safe.bind (staysThread_spread (stays_whenever rfl)) fun _ t _ _ => ?_
  cases acquired with
  | fetchFailed e =>
      refine Program.Safe.bind staysThread_look fun key t _ _ => ?_
      cases key with
      | none => trivial
      | some key => exact staysThread_exec rfl
  | bytes data origin =>
      cases origin with
      | importedRai =>
          exact Program.Safe.bind (staysThread_ingestSource _ _ _ _ _) fun _ _ _ _ =>
            staysThread_ret trivial
      | _ =>
          refine Program.Safe.bind (staysThread_inspectChecked ref data) fun contract t _ _ => ?_
          exact Program.Safe.bind (staysThread_ingestSource _ _ _ _ _) fun _ _ _ _ =>
            staysThread_ret trivial

theorem staysThread_reconcileConfigured (found : PyStr → Found) :
    StaysThread setup task (reconcileConfigured setup found) (fun _ => True) s := by
  have hcall : ∀ ref kind refresh acquisition t,
      StaysThread setup task (prepareCall setup ref kind refresh acquisition)
        (fun _ => True) t := by
    intro ref kind refresh acquisition t
    cases acquisition with
    | unparsed e => trivial
    | refused e =>
        refine Program.Safe.bind (staysThread_exec rfl) fun _ t _ _ => ?_
        exact Program.Safe.bind (staysThread_spread (stays_whenever rfl)) fun _ _ _ _ => trivial
    | acquired acquired => exact staysThread_prepare ref kind refresh acquired
  refine Program.Safe.forEach fun model _ t _ => ?_
  refine Program.Safe.bind (hcall _ _ _ _ t).attempt fun outcome t _ _ => ?_
  split
  · exact staysThread_ret trivial
  · trivial
  · exact staysThread_ret trivial

theorem staysThread_ingestZmqBytes (data : Bytes) :
    StaysThread setup task (ingestZmqBytes setup data) (fun _ => True) s := by
  unfold ingestZmqBytes
  split
  · trivial
  · refine Program.Safe.bind (staysThread_exec rfl) fun _ t _ _ => ?_
    refine Program.Safe.bind (staysThread_exec rfl) fun _ t _ _ => ?_
    exact Program.Safe.bind (staysThread_ingestSource _ _ _ _ _)
      fun _ _ _ _ => staysThread_ret trivial

theorem staysThread_requeueRef (ref : PyStr) :
    StaysThread setup task (requeueRef setup ref) (fun _ => True) s := by
  refine Program.Safe.bind staysThread_look fun row t _ _ => ?_
  cases row with
  | none => exact staysThread_ret trivial
  | some row =>
      exact Program.Safe.bind (staysThread_atomically (by simp)) fun _ _ _ _ =>
        staysThread_ret trivial

theorem staysThread_pump (hpumps : task.pumps = true) (dt : Int) :
    StaysThread setup task (FrigateXdna.pump setup dt) (fun _ => True) s := by
  have hretry : StaysThread setup task (retryDue setup) (fun _ => True) s := by
    refine Program.Safe.bind staysThread_look fun rows t _ _ => ?_
    refine Program.Safe.forEach fun row _ t _ => ?_
    exact Program.Safe.bind (staysThread_atomically (by simp)) fun _ _ _ _ =>
      staysThread_ret trivial
  refine Program.Safe.bind hretry fun _ t _ _ => ?_
  refine Program.Safe.bind staysThread_look fun rows t _ _ => ?_
  exact Program.Safe.forEach fun row _ t _ =>
    staysThread_spread (stays_pumpOne hpumps row.uuid dt)

/-- **Every task is tame.**  Only a task that advances jobs records a first success. -/
theorem Task.stays (task : Task) :
    StaysThread setup task (task.program setup) (fun _ => True) s := by
  cases task with
  | construct => exact staysThread_spread stays_construct
  | prepare ref kind refresh acquired => exact staysThread_prepare ref kind refresh acquired
  | reconcile found => exact staysThread_reconcileConfigured found
  | upload data => exact staysThread_ingestZmqBytes data
  | requeue ref => exact staysThread_requeueRef ref
  | pump dt => exact staysThread_pump rfl dt
  | wait uuid dt pumping => exact staysThread_spread (stays_waitStep uuid dt fun h => h)

namespace Process

/-! ## Runs of the process -/

/-- The step records the success of a job that names a key: a task that advances jobs writes
the {lit}`PREPARED` that the backend reports. -/
def RecordsSuccess (P : Process) (l : Label) : Prop :=
  ∃ i task uuid errorCode, l = .turn i ∧ P.taskAt i = some task ∧ task.pumps = true ∧
    action P l = some (.stmt (.setJob uuid .prepared errorCode)) ∧
    ∃ j ∈ P.shared.registry.jobs, j.uuid = uuid ∧ ∃ key, j.compileKey = some key ∧ key ≠ []

/-- No row that is prepared for a key is rewritten to {lit}`COMPILE_FAILED`. -/
def NotOverwritten (e : Event) : Prop :=
  ∀ uuid before, e = .overwritten uuid before →
    ∀ j ∈ before.registry.jobs, j.uuid = uuid → j.Unprepared

/-- Nothing is prepared or published, and every thread is tame. -/
structure Quiet (setup : Setup) (P : Process) : Prop where
  fresh : Fresh setup P.shared
  safe : Pool.Safe (Act.exec setup) (.within Unpublished) (Tame setup) P

theorem Quiet.unpublished {P : Process} (h : Quiet setup P) : Unpublished P.shared :=
  h.safe.holds

/-- What is rewritten before the first success was not prepared. -/
theorem Quiet.notOverwritten {P P' : Process} {l : Label} {es : List Event}
    (h : Quiet setup P) (hstep : step setup P l = some (P', es)) :
    ∀ e ∈ es, NotOverwritten e := by
  rintro e he uuid before rfl j hj -
  rcases step_cases hstep with ⟨-, -, hes⟩ | ⟨i, task, a, -, -, -, -, rfl⟩ |
    ⟨e, -, -, -, rfl⟩ | ⟨token, -, -, -, rfl⟩
  · obtain ⟨-, -, -, hc⟩ := hes _ he
    contradiction
  · rcases List.mem_append.mp he with hopened | hover
    · rw [openedBy_eq h.fresh, Option.mem_toList, Option.map_eq_some_iff] at hopened
      obtain ⟨new, -, heq⟩ := hopened
      contradiction
    · unfold overwrittenBy at hover
      split at hover
      · split at hover
        · obtain ⟨-, rfl⟩ := Event.overwritten.inj (List.mem_singleton.mp hover)
          exact h.unpublished.rows j hj
        · contradiction
      · contradiction
  · contradiction
  · contradiction

/-- A recorded success is not committed. -/
theorem Quiet.not_committed {P P' : Process} {l : Label} {es : List Event}
    (h : Quiet setup P) (hstep : step setup P l = some (P', es))
    (hrecords : RecordsSuccess P l) : ¬PreparedCommitted P'.shared := by
  obtain ⟨i, task, uuid, errorCode, rfl, -, -, ha, j, hj, rfl, key, hkey, hne⟩ := hrecords
  have hshared : P'.shared = (Stmt.setJob j.uuid .prepared errorCode).exec setup P.shared := by
    rcases step_cases hstep with ⟨hnone, -, -⟩ | ⟨i', task', a, -, -, ha', hs, -⟩ |
      ⟨e, hl, -⟩ | ⟨token, hl, -⟩
    · rw [hnone] at ha
      contradiction
    · rw [ha'] at ha
      rw [hs, Option.some.inj ha]
      rfl
    · contradiction
    · contradiction
  have hidle : P.shared.isPrepared j.uuid = false := by
    refine List.any_eq_false.mpr fun x hx => ?_
    rw [Bool.and_eq_true, beq_iff_eq, beq_iff_eq]
    rintro ⟨hu, hstage⟩
    have hxj := h.fresh.getJob hx
    rw [hu, h.fresh.getJob hj] at hxj
    obtain rfl := Option.some.inj hxj
    exact h.unpublished.rows j hj key ⟨hstage, hkey, hne⟩
  intro hall
  let j' : JobRow :=
    { j with stage := .prepared, errorCode, progress := none, updatedAt := P.shared.now }
  have hmem : j' ∈ P'.shared.registry.jobs := by
    rw [hshared]
    exact Registry.mem_modifyJob.mpr ⟨j, hj, by rw [if_pos rfl]⟩
  rcases hall j' hmem key ⟨rfl, hkey, hne⟩ with hc | he
  · rw [hshared] at hc
    simp [Manager.committed, Stmt.exec, Registry.setJob, Registry.modifyJob,
      Registry.getArtifact, h.unpublished.artifacts] at hc
  · rw [hshared] at he
    simp [j', Stmt.exec, hidle] at he

/-- A new process on a data dir without artifacts. -/
theorem boot_quiet (hfresh : Fresh setup s) (h : Unpublished s) (bootToken : PyStr) :
    Quiet setup (boot setup bootToken s) where
  fresh := hfresh.same rfl le_rfl
  safe :=
    { holds := h.same rfl rfl rfl
      threads := by
        intro th hth
        obtain rfl := List.mem_singleton.mp hth
        exact Task.stays .construct }

/-- **A step that records no success publishes nothing.** -/
theorem Quiet.step {P P' : Process} {l : Label} {es : List Event} (h : Quiet setup P)
    (hstep : step setup P l = some (P', es)) (hnot : ¬RecordsSuccess P l) : Quiet setup P' := by
  refine ⟨step_fresh h.fresh hstep, ?_⟩
  cases l with
  | start task =>
      simp only [Process.step] at hstep
      split at hstep
      · contradiction
      · cases hstep
        exact h.safe.start (Task.stays task)
  | turn i =>
      simp only [Process.step] at hstep
      split at hstep
      · contradiction
      · obtain ⟨Q, hturn, hQ⟩ := Option.map_eq_some_iff.mp hstep
        cases hQ
        refine Pool.turn_safe h.safe (fun task a k hi htame => ⟨?_, trivial⟩) hturn
        rcases htame with ⟨hpumps, uuid, errorCode, rfl⟩ | hunpublished
        · -- the row that is written, if there is one, names no key
          refine h.unpublished.of_rows (fun x hx key hp => ?_) rfl rfl
          obtain ⟨old, hold, rfl⟩ := Registry.mem_modifyJob.mp hx
          by_cases hu : old.uuid = uuid
          · rw [if_pos hu] at hp
            exact absurd ⟨i, task, uuid, errorCode, rfl, by simp [taskAt, hi], hpumps,
              by simp [action, Pool.next, hi], old, hold, hu, key, hp.2⟩ hnot
          · rw [if_neg hu] at hp
            exact ⟨old, hold, hp⟩
        · exact hunpublished
  | abort i =>
      simp only [Process.step] at hstep
      split at hstep
      · contradiction
      · cases hstep
        exact ⟨h.safe.holds, fun th hth => h.safe.threads th (List.mem_of_mem_eraseIdx hth)⟩
  | outside e =>
      obtain ⟨t, ht, hP⟩ := Option.map_eq_some_iff.mp hstep
      cases hP
      exact h.safe.outside (unpublished_happen h.unpublished ht) trivial
  | crash token =>
      cases hstep
      exact (boot_quiet h.fresh h.unpublished token).safe

/-- **Prepared implies committed, until a compile succeeds.**  In all states of a run every job
that is prepared for a key has a committed artifact, unless that was invalidated since, and no
such job is rewritten to {lit}`COMPILE_FAILED`, exactly when no step of the run records the
success of a job with a key. -/
theorem prepared_committed_iff {bootToken : PyStr} {labels : List Label} {P : Process}
    {es : List Event}
    (hrun : (machine setup).exec labels (first setup bootToken) = some (P, es)) :
    ((machine setup).Throughout (fun P => PreparedCommitted P.shared) labels
        (first setup bootToken) ∧ ∀ e ∈ es, NotOverwritten e) ↔
      (machine setup).Along (fun P l => ¬RecordsSuccess P l) labels
        (first setup bootToken) := by
  have hfirst : Quiet setup (first setup bootToken) :=
    boot_quiet ⟨by simp, by simp⟩ ⟨by simp, rfl, rfl⟩ bootToken
  refine Machine.throughout_events_iff_along (I := Quiet setup)
    (fun P l P' es h hstep => ⟨fun hgood hrecords => ?_, fun hnot => ⟨?_, ?_⟩⟩)
    (fun P l P' es h hnot hstep => h.step hstep hnot) hfirst hfirst.unpublished.committed hrun
  · exact h.not_committed hstep hrecords hgood.1
  · exact (h.step hstep hnot).unpublished.committed
  · exact h.notOverwritten hstep

/-- The run in which the compile of an upload fails. -/
theorem prepared_committed_failedUpload :
    ∃ P es, (machine failingSetup).exec failedUpload (first failingSetup (py "boot")) =
        some (P, es) ∧
      (P.shared.registry.jobs.map JobRow.stage = [.compileFailed]) ∧
      (((machine failingSetup).Throughout (fun P => PreparedCommitted P.shared) failedUpload
          (first failingSetup (py "boot")) ∧ ∀ e ∈ es, NotOverwritten e) ↔
        (machine failingSetup).Along (fun P l => ¬RecordsSuccess P l) failedUpload
          (first failingSetup (py "boot"))) := by
  have hends : (machine failingSetup).endsIn failedUpload (first failingSetup (py "boot"))
      (fun P => P.shared.registry.jobs.map JobRow.stage == [.compileFailed]) = true := by
    decide +kernel
  obtain ⟨P, es, hrun, hfailed⟩ := (machine failingSetup).exists_exec_of_endsIn hends
  exact ⟨P, es, hrun, by simpa using hfailed, prepared_committed_iff hrun⟩

/-! ## A compile whose result cannot be read -/

/-- An upload whose compile succeeds, until the row says so. -/
def reportedPrepared : List Label :=
  sampleUpload ++ [.start (.pump 1)] ++ turns 0 8 ++
    [.outside (.compiled (py "job-" ++ [0])
      (some { returncode := 0, rai := some none })), .start (.pump 1)] ++ turns 0 6

/-- Whether a prepared row lacks its artifact. -/
def lacksArtifact (s : Manager) : Bool :=
  s.registry.jobs.any fun j =>
    j.stage == .prepared && j.compileKey == some sampleKey && !s.committed sampleKey &&
      !s.excused.contains j.uuid

theorem not_preparedCommitted_of_lacksArtifact (h : lacksArtifact s = true) :
    ¬ PreparedCommitted s := by
  intro hall
  obtain ⟨j, hj, hmatch⟩ := List.any_eq_true.mp h
  simp only [Bool.and_eq_true, beq_iff_eq, Bool.not_eq_true'] at hmatch
  obtain ⟨⟨⟨hstage, hkey⟩, hcommitted⟩, hexcused⟩ := hmatch
  rcases hall j hj sampleKey ⟨hstage, hkey, by decide⟩ with hc | he
  · rw [hcommitted] at hc
    contradiction
  · rw [List.contains_iff_mem.mpr he] at hexcused
    contradiction

/-- Whether an event rewrites a row that is prepared for the key. -/
def isOverwritten : Event → Bool
  | .overwritten uuid before =>
      before.registry.jobs.any fun j =>
        j.uuid == uuid && (j.stage == .prepared && j.compileKey == some sampleKey)
  | _ => false

theorem not_notOverwritten {e : Event} (h : isOverwritten e = true) :
    ¬ NotOverwritten e := by
  intro hnot
  cases e with
  | overwritten uuid before =>
      obtain ⟨j, hj, hmatch⟩ := List.any_eq_true.mp h
      simp only [Bool.and_eq_true, beq_iff_eq] at hmatch
      exact hnot uuid before rfl j hj hmatch.1 sampleKey ⟨hmatch.2.1, hmatch.2.2, by decide⟩
  | _ => contradiction

/-- A row is prepared without its artifact, and when the artifact cannot be read the row
is rewritten to {lit}`COMPILE_FAILED`. -/
theorem prepared_before_commit :
    (∃ P es, (machine compilingSetup).exec reportedPrepared
        (first compilingSetup (py "boot")) = some (P, es) ∧ ¬ PreparedCommitted P.shared) ∧
      ∃ P es, (machine compilingSetup).exec (reportedPrepared ++ turns 0 7)
        (first compilingSetup (py "boot")) = some (P, es) ∧
          ¬ ∀ e ∈ es, NotOverwritten e := by
  have hends : (machine compilingSetup).endsIn reportedPrepared
      (first compilingSetup (py "boot")) (fun P => lacksArtifact P.shared) = true := by
    decide +kernel
  have hemits : (machine compilingSetup).emits (reportedPrepared ++ turns 0 7)
      (first compilingSetup (py "boot")) isOverwritten = true := by
    decide +kernel
  obtain ⟨P, es, hrun, hlacks⟩ := (machine compilingSetup).exists_exec_of_endsIn hends
  obtain ⟨Q, fs, e, hrun', he, hover⟩ := (machine compilingSetup).exists_exec_of_emits hemits
  exact ⟨⟨P, es, hrun, not_preparedCommitted_of_lacksArtifact hlacks⟩, Q, fs, hrun',
    fun hall => not_notOverwritten hover (hall e he)⟩

end Process
end FrigateXdna
