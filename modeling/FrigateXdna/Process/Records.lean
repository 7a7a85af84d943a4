import FrigateXdna.Library.Keeps
import FrigateXdna.Process
import FrigateXdna.Supervisor.Rows

/-!
# What the failure records of a process are made of

A failure record is written when an attempt is opened, when it fails and when a start finds it
interrupted; it is stamped when it is resumed or when a resumption is refused.  A rule on
records that these five ways of writing respect holds of every record of every reachable state.

Main results:

- Definition {lit}`RecordRule`: a rule that every way of writing a record respects.
- Theorem {lit}`Process.recorded`: such a rule holds in every reachable state.
-/

namespace FrigateXdna

open Python Library JobManager

variable {setup : Setup} {ok : Failure → Prop}

/-! ## Rules -/

/-- A rule on failure records that holds of what the process writes. -/
structure RecordRule (ok : Failure → Prop) : Prop where
  empty : ok {}
  lineage : ∀ prevUuid history,
    ok { resumedFrom := some prevUuid, history := some history }
  terminal : ∀ memlockAdequate stage errorCode detail attempt now base errorText,
    ok (newRecord memlockAdequate stage errorCode detail attempt now base errorText)
  interrupted : ∀ rowBoot attempt s, ok (interruptRecord rowBoot attempt s)
  consumed : ∀ record uuid, ok record → ok { record with resumedTo := some uuid }
  refused : ∀ record text, ok record → ok { record with resumeRefused := some text }

/-- The record of a row respects a rule. -/
def JobRow.Respects (ok : Failure → Prop) (j : JobRow) : Prop :=
  ∀ record, j.failure = some record → ok record

/-- Every record respects a rule. -/
def Recorded (ok : Failure → Prop) (s : Manager) : Prop :=
  ∀ j ∈ s.registry.jobs, j.Respects ok

/-- The record of a row, or an empty one. -/
theorem JobRow.Respects.getD (hrule : RecordRule ok) {j : JobRow} (h : j.Respects ok) :
    ok (j.failure.getD {}) := by
  cases hrecord : j.failure with
  | none => exact hrule.empty
  | some record => exact h record hrecord

/-! ## Statements -/

/-- A statement that writes no record. -/
def Stmt.writesNoRecord : Stmt → Bool
  | .setFailure _ _ => false
  | _ => true

/-- A job update that keeps the records. -/
theorem Recorded.modify {s t : Manager} {uuid : PyStr} {f : JobRow → JobRow}
    (h : Recorded ok s) (ht : t.registry.jobs = (s.registry.modifyJob uuid f).jobs)
    (hf : ∀ j, j.Respects ok → (f j).Respects ok) : Recorded ok t := by
  intro j hj
  rw [ht] at hj
  obtain ⟨old, hold, rfl⟩ := Registry.mem_modifyJob.mp hj
  split
  · exact hf old (h old hold)
  · exact h old hold

/-- A statement that writes no record keeps every rule. -/
theorem recorded_of_writesNoRecord {a : Stmt} (ha : a.writesNoRecord = true) (s : Manager)
    (h : Recorded ok s) : Recorded ok (a.exec setup s) := by
  by_cases hkeeps : a.keepsJobs = true
  · intro j hj
    rw [Stmt.keepsJobs_exec hkeeps] at hj
    exact h j hj
  · cases a with
    | setFailure uuid record => contradiction
    | createJob row =>
        intro j hj
        rcases List.mem_append.mp hj with hj | hj
        · exact h j hj
        · obtain rfl := List.mem_singleton.mp hj
          exact fun record hrecord => by contradiction
    | setJob uuid stage code => exact @Recorded.modify ok s _ uuid _ h rfl fun _ hj => hj
    | deleteJob uuid => exact fun j hj => h j (List.mem_filter.mp hj).1
    | _ => exact absurd rfl hkeeps

/-- A record that respects the rule. -/
theorem recorded_setFailure {uuid : PyStr} {record : Failure} (hrecord : ok record)
    (s : Manager) (h : Recorded ok s) :
    Recorded ok ((Stmt.setFailure uuid record).exec setup s) := by
  refine h.modify rfl fun j _ r hr => ?_
  obtain rfl := Option.some.inj hr
  exact hrecord

/-! ## Programs -/

/-- A program of the process that keeps a rule on records. -/
abbrev Writes {β : Type} (setup : Setup) (ok : Failure → Prop) (p : Prog β) (Q : β → Prop) :
    Prop :=
  p.Keeps (Stmt.exec setup) (Recorded ok) Q

/-- A read. -/
theorem writes_read {β : Type} {f : Manager → β} {Q : β → Prop}
    (h : ∀ s, Recorded ok s → Q (f s)) : Writes setup ok (read f) Q :=
  fun s hs => ⟨hs, h s hs⟩

/-- A read whose result does not matter. -/
theorem writes_read' {β : Type} {f : Manager → β} :
    Writes setup ok (read f) fun _ => True :=
  writes_read fun _ _ => trivial

/-- A program without records. -/
abbrev WritesNoRecord {β : Type} (p : Prog β) : Prop :=
  p.Only fun a => a.writesNoRecord = true

/-- A program without records keeps every rule. -/
theorem writes_of_only {β : Type} {p : Prog β} (h : WritesNoRecord p) :
    Writes setup ok p fun _ => True :=
  Program.Keeps.of_only (fun _ s ha hs => recorded_of_writesNoRecord ha s hs) h

/-- A program that leaves the rows alone writes no record. -/
theorem writesNoRecord_of_keepsJobs {β : Type} {p : Prog β} (h : KeepsJobs p) :
    WritesNoRecord p :=
  h.weaken fun a ha => by cases a <;> first | rfl | simp [Stmt.keepsJobs] at ha

/-- One statement without a record. -/
theorem writes_exec {a : Stmt} (ha : a.writesNoRecord = true) :
    Writes setup ok (exec a) fun _ => True :=
  writes_of_only ⟨ha, fun _ => trivial⟩

/-- A record that respects the rule. -/
theorem writes_setFailure {uuid : PyStr} {record : Failure} (hrecord : ok record) :
    Writes setup ok (exec (.setFailure uuid record)) fun _ => True :=
  fun s hs => ⟨recorded_setFailure hrecord s hs, trivial⟩

/-- The row of a job. -/
theorem writes_someJob (uuid : PyStr) :
    Writes setup ok (someJob uuid) fun job => job.Respects ok := by
  refine Program.Keeps.bind (Q := fun r => ∀ job, r = some job → job.Respects ok)
    (writes_read fun s hs job hjob => hs job (List.mem_of_find?_eq_some hjob)) fun r hr => ?_
  cases r with
  | none => trivial
  | some job => exact hr job rfl

/-- The factory writes nothing. -/
theorem writesNoRecord_makeBackendJob (kw : BackendArgs) :
    WritesNoRecord (makeBackendJob setup kw) := by
  unfold makeBackendJob compileSourcePath
  split
  · split
    · trivial
    · refine Program.Only.bind (Program.Only.bind ⟨rfl, fun _ => trivial⟩ fun src => ?_)
        fun _ => trivial
      cases src with
      | none => trivial
      | some src =>
          refine Program.Only.bind ⟨rfl, fun _ => trivial⟩ fun found => ?_
          split <;> trivial
  · trivial

theorem writes_joinOrCreate (ref : PyStr) (key : Option PyStr) (extra : Extra) :
    Writes setup ok (joinOrCreate setup ref key extra) fun _ => True := by
  refine Program.Keeps.bind writes_read' fun live _ => ?_
  cases live with
  | some live => exact Program.Keeps.bind (writes_exec rfl) fun _ _ => trivial
  | none =>
      refine Program.Keeps.bind
        (writes_of_only (p := newRow setup _) ⟨rfl, fun _ => trivial⟩) fun uuid _ => ?_
      refine Program.Keeps.bind (writes_of_only (writesNoRecord_makeBackendJob _)) fun b _ => ?_
      refine Program.Keeps.bind (writes_exec rfl) fun _ _ => ?_
      exact (writes_someJob uuid).weaken fun _ _ => trivial

theorem writes_waitPrepared (uuid : PyStr) (pumping : Bool) (job : JobRow) :
    Writes setup ok (waitPrepared setup uuid pumping job) fun _ => True := by
  have hmark : Writes setup ok (markPreparedRefs (job.compileKey.getD [])) fun _ => True :=
    writes_of_only (writesNoRecord_of_keepsJobs (keepsJobs_markPreparedRefs _))
  unfold waitPrepared
  dsimp only
  split
  · exact writes_exec rfl
  · split
    · refine Program.Keeps.bind
        (writes_of_only (writesNoRecord_of_keepsJobs (keepsJobs_publishResult job))).attempt
        fun r _ => ?_
      split
      · exact Program.Keeps.bind (writes_exec rfl) fun _ _ =>
          writes_of_only (writesNoRecord_of_keepsJobs (keepsJobs_markJobRefs uuid _))
      · trivial
      · exact hmark
    · exact hmark

section Rule

variable (hrule : RecordRule ok)

include hrule

theorem writes_recordTerminal (uuid : PyStr) (stage : Stage) (errorCode : Option PyStr)
    (detail errorText : PyStr) :
    Writes setup ok (recordTerminal uuid stage errorCode detail errorText)
      fun job => job.Respects ok := by
  refine Program.Keeps.bind (writes_someJob uuid) fun job _ => ?_
  refine Program.Keeps.bind (writes_read fun s _ =>
    hrule.terminal s.memlockAdequate stage errorCode detail job.attempt s.now _ errorText)
    fun record hrecord => ?_
  exact Program.Keeps.bind (writes_setFailure hrecord) fun _ _ => writes_someJob uuid

theorem writes_spawnBackend (uuid : PyStr) (kw : BackendArgs) (prevUuid : PyStr) :
    Writes setup ok (spawnBackend setup uuid kw prevUuid) fun _ => True := by
  refine Program.Keeps.bind (writes_of_only (writesNoRecord_makeBackendJob kw)).attempt
    fun r _ => ?_
  cases r with
  | ok backend => exact Program.Keeps.bind (writes_exec rfl) fun _ _ => trivial
  | error e =>
      refine Program.Keeps.bind (writes_exec rfl) fun _ _ => ?_
      refine Program.Keeps.bind (Q := fun r => ∀ job, r = some job → job.Respects ok)
        (writes_read fun s hs job hjob => hs job (List.mem_of_find?_eq_some hjob))
        fun prior hprior => ?_
      cases prior with
      | none => trivial
      | some prior =>
          exact Program.Keeps.bind
            (writes_setFailure (hrule.refused _ _ ((hprior prior rfl).getD hrule)))
            fun _ _ => trivial

theorem writes_newAttempt (ref : PyStr) (key : Option PyStr) (prev : Failure) (held : Bool)
    (extra : Extra) (prevUuid : PyStr) (src : Option PyStr) :
    Writes setup ok (newAttempt setup ref key prev held extra prevUuid src)
      fun r => ∀ job, r = some job → job.Respects ok := by
  have hrow : Writes setup ok (newRow setup
      { ref, compileKey := key, attempt := prev.attempts.getD 0 + 1, sourceSha256 := src })
      fun _ => True :=
    writes_of_only ⟨rfl, fun _ => trivial⟩
  refine Program.Keeps.bind hrow fun uuid _ => ?_
  refine Program.Keeps.bind (writes_setFailure (hrule.lineage _ _)) fun _ _ => ?_
  have halias : WritesNoRecord (carryAliases uuid ref prevUuid) :=
    Program.Only.bind ⟨rfl, fun _ => trivial⟩ fun refs =>
      Program.Only.forEach fun _ _ => ⟨rfl, fun _ => trivial⟩
  refine Program.Keeps.bind (writes_of_only halias) fun _ _ => ?_
  refine Program.Keeps.bind (writes_spawnBackend hrule _ _ _) fun spawned _ => ?_
  split
  · refine Program.Keeps.bind (writes_exec rfl) fun _ _ => ?_
    refine Program.Keeps.bind (writes_someJob uuid) fun job hjob => ?_
    intro job' hjob'
    obtain rfl := Option.some.inj hjob'
    exact hjob
  · exact fun job hjob => by contradiction

theorem writes_maybeResume (ref : PyStr) (key : Option PyStr) {failed : JobRow} (held : Bool)
    (extra : Extra) (hfailed : failed.Respects ok) :
    Writes setup ok (maybeResume setup ref key failed held extra)
      fun r => ∀ job, r = some job → job.Respects ok := by
  have hnone : Writes setup ok (.ret (none : Option JobRow))
      fun r => ∀ job, r = some job → job.Respects ok := fun job hjob => by contradiction
  refine Program.Keeps.bind writes_read' fun live _ => ?_
  split
  · exact hnone
  · refine Program.Keeps.bind writes_read' fun inhibited _ => ?_
    split
    · exact hnone
    · split
      · exact hnone
      · rename_i record hrecord
        refine Program.Keeps.bind writes_read' fun eligible _ => ?_
        split
        · refine Program.Keeps.bind (writes_newAttempt hrule _ _ _ _ _ _ _) fun new hnew => ?_
          cases new with
          | none => exact hnone
          | some new =>
              exact Program.Keeps.bind
                (writes_setFailure (hrule.consumed _ _ (hfailed record hrecord)))
                fun _ _ => hnew
        · exact hnone

theorem writes_submit (ref : PyStr) (key : Option PyStr) (extra : Extra) :
    Writes setup ok (submit setup ref key extra) fun _ => True := by
  refine Program.Keeps.bind writes_read' fun existing _ => ?_
  cases existing with
  | none => exact writes_joinOrCreate ref key extra
  | some existing =>
      dsimp only
      split
      · exact Program.Keeps.bind (writes_exec rfl) fun _ _ => trivial
      · split
        · refine Program.Keeps.bind (writes_someJob existing.uuid) fun full hfull => ?_
          refine Program.Keeps.bind (writes_maybeResume hrule _ _ _ _ hfull) fun new _ => ?_
          cases new <;> trivial
        · refine Program.Keeps.bind writes_read' fun cached _ => ?_
          split
          · trivial
          · exact writes_joinOrCreate ref key extra

theorem writes_resumeRow (uuid ref : PyStr) (key : Option PyStr) :
    Writes setup ok (resumeRow setup uuid ref key) fun _ => True := by
  refine Program.Keeps.bind (Q := fun r => ∀ job, r = some job → job.Respects ok)
    (writes_read fun s hs job hjob => hs job (List.mem_of_find?_eq_some hjob)) fun r hr => ?_
  cases r with
  | none => trivial
  | some full =>
      exact (writes_maybeResume hrule _ _ _ _ (hr full rfl)).weaken fun _ _ => trivial

theorem writes_requeue (ref : PyStr) (key : Option PyStr) :
    Writes setup ok (requeue setup ref key) fun _ => True := by
  refine Program.Keeps.bind writes_read' fun existing _ => ?_
  cases existing with
  | none => trivial
  | some existing =>
      dsimp only
      split
      · trivial
      · refine Program.Keeps.bind writes_read' fun inhibited _ => ?_
        split
        · trivial
        · refine Program.Keeps.bind (writes_someJob existing.uuid) fun full hfull => ?_
          cases requeuePrev full with
          | none => trivial
          | some prev =>
              refine Program.Keeps.bind writes_read' fun live _ => ?_
              split
              · trivial
              · refine Program.Keeps.bind (writes_newAttempt hrule _ _ _ _ _ _ _)
                  fun new _ => ?_
                cases new with
                | none => trivial
                | some new =>
                    exact Program.Keeps.bind
                      (writes_setFailure (hrule.consumed _ _ (hfull.getD hrule)))
                      fun _ _ => trivial

theorem writes_finishTerminal (uuid : PyStr) (b : Backend) (job : JobRow) :
    Writes setup ok (finishTerminal setup uuid b job) fun _ => True := by
  refine Program.Keeps.bind (writes_recordTerminal hrule uuid _ _ _ _) fun job hjob => ?_
  refine Program.Keeps.bind (writes_maybeResume hrule _ _ _ _ hjob) fun new _ => ?_
  cases new <;> trivial

theorem writes_pump (uuid : PyStr) (dt : Int) :
    Writes setup ok (JobManager.pump setup uuid dt) fun _ => True := by
  refine Program.Keeps.bind writes_read' fun b _ => ?_
  cases b with
  | none =>
      refine Program.Keeps.bind writes_read' fun r _ => ?_
      cases r <;> trivial
  | some b =>
      refine Program.Keeps.bind writes_read' fun prev _ => ?_
      refine Program.Keeps.bind
        (writes_of_only (p := pollBackend uuid dt b) ⟨rfl, fun _ => trivial⟩) fun b' _ => ?_
      refine Program.Keeps.bind (writes_exec rfl) fun _ _ => ?_
      refine Program.Keeps.bind (writes_someJob uuid) fun job _ => ?_
      split
      · exact writes_finishTerminal hrule uuid _ job
      · trivial

theorem writes_failJob (uuid : PyStr) (e : FxdnaError) :
    Writes setup ok (failJob uuid e) fun _ => True := by
  refine Program.Keeps.bind (writes_exec rfl) fun _ _ => ?_
  refine Program.Keeps.bind (writes_recordTerminal hrule uuid _ _ _ _) fun _ _ => ?_
  exact writes_of_only (writesNoRecord_of_keepsJobs (keepsJobs_markJobRefs uuid _))

theorem writes_pumpPrepared (uuid : PyStr) (job : JobRow) :
    Writes setup ok (pumpPrepared setup uuid job) fun _ => True := by
  unfold pumpPrepared
  dsimp only
  split
  · exact writes_exec rfl
  · refine Program.Keeps.bind
      (writes_of_only (writesNoRecord_of_keepsJobs (keepsJobs_publishResult job))).attempt
      fun r _ => ?_
    split
    · exact writes_failJob hrule uuid _
    · trivial
    · exact writes_of_only (writesNoRecord_of_keepsJobs (keepsJobs_markPreparedRefs _))

theorem writes_pumpOne (uuid : PyStr) (dt : Int) :
    Writes setup ok (pumpOne setup uuid dt) fun _ => True := by
  refine Program.Keeps.bind (writes_pump hrule uuid dt).attempt fun r _ => ?_
  split
  · exact writes_failJob hrule uuid _
  · trivial
  · split
    · exact writes_of_only (writesNoRecord_of_keepsJobs (keepsJobs_markJobRefs uuid _))
    · split
      · exact writes_pumpPrepared hrule uuid _
      · trivial

theorem writes_waitStep (uuid : PyStr) (dt : Int) (pumping : Bool) :
    Writes setup ok (waitStep setup uuid dt pumping) fun _ => True := by
  have hjob : Writes setup ok (waitedJob setup uuid dt pumping) fun _ => True := by
    unfold waitedJob
    split
    · exact writes_pump hrule uuid dt
    · refine Program.Keeps.bind writes_read' fun r _ => ?_
      cases r <;> trivial
  refine Program.Keeps.bind hjob fun job _ => ?_
  dsimp only
  split
  · exact writes_waitPrepared _ _ _
  · split
    · exact writes_of_only (writesNoRecord_of_keepsJobs (keepsJobs_markJobRefs _ _))
    · trivial

theorem writes_construct : Writes setup ok (construct setup) fun _ => True := by
  have hwork : ∀ uuid, WritesNoRecord (recoverWork uuid) := by
    intro uuid
    refine Program.Only.bind ⟨rfl, fun _ => trivial⟩ fun found => ?_
    cases found with
    | none => exact ⟨rfl, fun _ => trivial⟩
    | some job =>
        dsimp only
        split
        · trivial
        · refine Program.Only.bind ⟨rfl, fun _ => trivial⟩ fun _ => ?_
          refine Program.Only.bind ⟨rfl, fun _ => trivial⟩ fun ref => ?_
          refine Program.Only.bind ?_ fun _ => ⟨rfl, fun _ => trivial⟩
          unfold whenever
          split
          · exact ⟨rfl, fun _ => trivial⟩
          · trivial
  have hartifact : ∀ key, WritesNoRecord (recoverArtifact setup key) := by
    intro key
    refine Program.Only.bind ⟨rfl, fun _ => trivial⟩ fun known => ?_
    split
    · trivial
    · refine Program.Only.bind ⟨rfl, fun _ => trivial⟩ fun r => ?_
      rcases r with e | _ | row
      · trivial
      · exact ⟨rfl, fun _ => trivial⟩
      · exact ⟨rfl, fun _ => trivial⟩
  have hrecover : WritesNoRecord (recover setup) := by
    refine Program.Only.bind ⟨rfl, fun _ => trivial⟩ fun work => ?_
    refine Program.Only.bind (Program.Only.forEach fun uuid _ => hwork uuid) fun _ => ?_
    refine Program.Only.bind ⟨rfl, fun _ => trivial⟩ fun staged => ?_
    refine Program.Only.bind
      (Program.Only.forEach fun _ _ => ⟨rfl, fun _ => trivial⟩) fun _ => ?_
    refine Program.Only.bind ⟨rfl, fun _ => trivial⟩ fun keys => ?_
    exact Program.Only.forEach fun key _ => hartifact key
  refine Program.Keeps.bind (writes_of_only hrecover) fun _ _ => ?_
  refine Program.Keeps.bind writes_read' fun live _ => ?_
  have hrecord : ∀ row : JobRow, Writes setup ok (do
      let record ← read (interruptRecord row.bootToken row.attempt)
      exec (.setFailure row.uuid record)) fun _ => True := fun row =>
    Program.Keeps.bind (writes_read fun s _ => hrule.interrupted row.bootToken row.attempt s)
      fun record hrecord => writes_setFailure hrecord
  refine Program.Keeps.bind (Program.Keeps.forEach fun row _ => ?_) fun _ _ => ?_
  · refine Program.Keeps.bind writes_read' fun gone _ => ?_
    split
    · trivial
    · refine Program.Keeps.bind (writes_exec rfl) fun _ _ => ?_
      exact Program.Keeps.bind (writes_exec rfl) fun _ _ => hrecord row
  · refine Program.Keeps.bind writes_read' fun bare _ => ?_
    refine Program.Keeps.forEach fun row _ => ?_
    exact Program.Keeps.bind (writes_exec rfl) fun _ _ => hrecord row

end Rule

/-! ## Threads -/

/-- An action that writes a record only inside a transaction. -/
def Act.writesNoRecord : Act → Bool
  | .stmt a => a.writesNoRecord
  | _ => true

/-- A thread of such actions. -/
abbrev ThreadWritesNoRecord {β : Type} (p : ThreadProg β) : Prop :=
  p.Only fun a => a.writesNoRecord = true

theorem threadWritesNoRecord_spread {β : Type} {p : Prog β} (h : WritesNoRecord p) :
    ThreadWritesNoRecord (spread p) := by
  induction p with
  | ret b => trivial
  | raise e => trivial
  | act a k ih => exact ⟨h.1, fun s => ih s (h.2 s)⟩

theorem threadWritesNoRecord_read {β : Type} (f : Manager → β) :
    ThreadWritesNoRecord (spread (read f)) :=
  ⟨rfl, fun _ => trivial⟩

theorem threadWritesNoRecord_exec {a : Stmt} (h : a.writesNoRecord = true) :
    ThreadWritesNoRecord (spread (exec a)) :=
  ⟨h, fun _ => trivial⟩

theorem threadWritesNoRecord_atomically {β : Type} {a : Act} {p : Prog β}
    (ha : a.writesNoRecord = true) : ThreadWritesNoRecord (atomically setup a p) := by
  refine ⟨ha, fun s => ?_⟩
  dsimp only
  split <;> trivial

theorem threadWritesNoRecord_submitCompile (ref digest key serving : PyStr) (origin : Origin) :
    ThreadWritesNoRecord (submitCompile setup ref digest key serving origin) := by
  refine Program.Only.bind (threadWritesNoRecord_read _) fun space => ?_
  split
  · refine Program.Only.bind (threadWritesNoRecord_atomically rfl) fun job => ?_
    exact Program.Only.bind (threadWritesNoRecord_exec rfl) fun _ => trivial
  · trivial

theorem threadWritesNoRecord_ingestSource (ref : PyStr) (data : Bytes) (origin : Origin)
    (inspected : Json) (refresh : Bool) :
    ThreadWritesNoRecord (ingestSource setup ref data origin inspected refresh) := by
  refine Program.Only.bind (threadWritesNoRecord_read _) fun moved => ?_
  split
  · exact Program.Only.bind (threadWritesNoRecord_exec rfl) fun _ => trivial
  · refine Program.Only.bind ?_ fun _ => ?_
    · refine Program.Only.bind (threadWritesNoRecord_read _) fun stored => ?_
      cases stored with
      | none => exact threadWritesNoRecord_exec rfl
      | some stored =>
          dsimp only
          split <;> trivial
    · refine Program.Only.bind (threadWritesNoRecord_exec rfl) fun _ => ?_
      refine Program.Only.bind (threadWritesNoRecord_exec rfl) fun _ => ?_
      split
      · trivial
      · split
        · trivial
        · rename_i key serving _
          refine Program.Only.bind (threadWritesNoRecord_read _) fun found => ?_
          split
          · refine Program.Only.bind (threadWritesNoRecord_read _) fun good => ?_
            split
            · refine Program.Only.bind (p := spread (newRow setup _))
                ⟨rfl, fun _ => trivial⟩ fun uuid => ?_
              refine Program.Only.bind (threadWritesNoRecord_exec rfl) fun _ => ?_
              exact Program.Only.bind (threadWritesNoRecord_exec rfl) fun _ => trivial
            · refine Program.Only.bind (threadWritesNoRecord_spread ?_) fun _ =>
                threadWritesNoRecord_submitCompile _ _ _ _ _
              refine Program.Only.bind ⟨rfl, fun _ => trivial⟩ fun there => ?_
              refine Program.Only.bind ?_ fun _ => ⟨rfl, fun _ => trivial⟩
              unfold whenever
              split
              · exact ⟨rfl, fun _ => trivial⟩
              · trivial
          · exact threadWritesNoRecord_submitCompile _ _ _ _ _

theorem threadWritesNoRecord_inspectChecked (ref : PyStr) (data : Bytes) :
    ThreadWritesNoRecord (inspectChecked setup ref data) := by
  unfold inspectChecked
  split
  · exact Program.Only.bind (threadWritesNoRecord_exec rfl) fun _ => trivial
  · trivial
  · exact Program.Only.bind (threadWritesNoRecord_exec rfl) fun _ => trivial

theorem threadWritesNoRecord_prepare (ref kind : PyStr) (refresh : Bool)
    (acquired : Acquired) :
    ThreadWritesNoRecord (prepare setup ref kind refresh acquired) := by
  refine Program.Only.bind (threadWritesNoRecord_exec rfl) fun _ => ?_
  refine Program.Only.bind (threadWritesNoRecord_spread ?_) fun _ => ?_
  · unfold whenever
    split
    · exact ⟨rfl, fun _ => trivial⟩
    · trivial
  · cases acquired with
    | fetchFailed e =>
        refine Program.Only.bind (threadWritesNoRecord_read _) fun key => ?_
        cases key with
        | none => trivial
        | some key => exact threadWritesNoRecord_exec rfl
    | bytes data origin =>
        cases origin with
        | importedRai =>
            exact Program.Only.bind (threadWritesNoRecord_ingestSource _ _ _ _ _) fun _ => trivial
        | _ =>
            refine Program.Only.bind (threadWritesNoRecord_inspectChecked ref data)
              fun contract => ?_
            exact Program.Only.bind (threadWritesNoRecord_ingestSource _ _ _ _ _)
              fun _ => trivial

theorem threadWritesNoRecord_prepareCall (ref kind : PyStr) (refresh : Bool)
    (acquisition : Acquisition) :
    ThreadWritesNoRecord (prepareCall setup ref kind refresh acquisition) := by
  cases acquisition with
  | unparsed e => trivial
  | refused e =>
      refine Program.Only.bind (threadWritesNoRecord_exec rfl) fun _ => ?_
      refine Program.Only.bind (threadWritesNoRecord_spread ?_) fun _ => trivial
      unfold whenever
      split
      · exact ⟨rfl, fun _ => trivial⟩
      · trivial
  | acquired acquired => exact threadWritesNoRecord_prepare ref kind refresh acquired

theorem threadWritesNoRecord_reconcileConfigured (found : PyStr → Found) :
    ThreadWritesNoRecord (reconcileConfigured setup found) := by
  refine Program.Only.forEach fun model _ => ?_
  refine Program.Only.bind
    (Program.Only.attempt (threadWritesNoRecord_prepareCall _ _ _ _)) fun outcome => ?_
  split <;> trivial

theorem threadWritesNoRecord_ingestZmqBytes (data : Bytes) :
    ThreadWritesNoRecord (ingestZmqBytes setup data) := by
  unfold ingestZmqBytes
  split
  · trivial
  · refine Program.Only.bind (threadWritesNoRecord_exec rfl) fun _ => ?_
    refine Program.Only.bind (threadWritesNoRecord_exec rfl) fun _ => ?_
    exact Program.Only.bind (threadWritesNoRecord_ingestSource _ _ _ _ _) fun _ => trivial

theorem threadWritesNoRecord_requeueRef (ref : PyStr) :
    ThreadWritesNoRecord (requeueRef setup ref) := by
  refine Program.Only.bind (threadWritesNoRecord_read _) fun row => ?_
  cases row with
  | none => trivial
  | some row =>
      exact Program.Only.bind (threadWritesNoRecord_atomically rfl) fun _ => trivial

theorem threadWritesNoRecord_retryDue : ThreadWritesNoRecord (retryDue setup) := by
  refine Program.Only.bind (threadWritesNoRecord_read _) fun rows => ?_
  exact Program.Only.forEach fun row _ =>
    Program.Only.bind (threadWritesNoRecord_atomically rfl) fun _ => trivial

/-- A transaction, completed or rolled back. -/
theorem recorded_transaction {β : Type} {p : Prog β} {Q : β → Prop}
    (hp : Writes setup ok p Q) {s : Manager} (hs : Recorded ok s) :
    Recorded ok (transaction setup p s).1 := by
  have hrun := (hp.run hs).1
  unfold transaction
  split
  · rename_i t b heq
    rw [heq] at hrun
    exact hrun
  · exact hs

/-- Statements that a thread performs one by one. -/
theorem keeps_spread {β : Type} {p : Prog β} {Q : β → Prop} (h : Writes setup ok p Q) :
    (spread p).Keeps (Act.exec setup) (Recorded ok) Q :=
  h.relabel (f := Act.stmt) fun _ _ => rfl

section Tasks

variable (hrule : RecordRule ok)

include hrule

/-- An action without a record of its own. -/
theorem recorded_act {a : Act} {s : Manager} (ha : a.writesNoRecord = true)
    (hs : Recorded ok s) : Recorded ok (a.exec setup s) := by
  cases a with
  | stmt a => exact recorded_of_writesNoRecord ha s hs
  | submit ref key extra => exact recorded_transaction (writes_submit hrule ref key extra) hs
  | resume uuid ref key => exact recorded_transaction (writes_resumeRow hrule uuid ref key) hs
  | requeue ref key => exact recorded_transaction (writes_requeue hrule ref key) hs

/-- A thread without records of its own. -/
theorem keeps_of_only {β : Type} {p : ThreadProg β} (h : ThreadWritesNoRecord p) :
    p.Keeps (Act.exec setup) (Recorded ok) fun _ => True := by
  have hstep : ∀ a s, a.writesNoRecord = true → Recorded ok s →
      Recorded ok (Act.exec setup a s) :=
    fun _ _ ha hs => recorded_act hrule ha hs
  exact Program.Keeps.of_only hstep h

/-- **Every task of the process keeps the rule.** -/
theorem Task.records (task : Task) :
    (task.program setup).Keeps (Act.exec setup) (Recorded ok) fun _ => True := by
  cases task with
  | construct => exact keeps_spread (writes_construct hrule)
  | prepare ref kind refresh acquired =>
      exact keeps_of_only hrule (threadWritesNoRecord_prepare ref kind refresh acquired)
  | reconcile found =>
      exact keeps_of_only hrule (threadWritesNoRecord_reconcileConfigured found)
  | upload data => exact keeps_of_only hrule (threadWritesNoRecord_ingestZmqBytes data)
  | requeue ref => exact keeps_of_only hrule (threadWritesNoRecord_requeueRef ref)
  | pump dt =>
      refine Program.Keeps.bind (keeps_of_only hrule threadWritesNoRecord_retryDue)
        fun _ _ => ?_
      refine Program.Keeps.bind (keeps_of_only hrule (threadWritesNoRecord_read _))
        fun rows _ => ?_
      exact Program.Keeps.forEach fun row _ =>
        keeps_spread (writes_pumpOne hrule row.uuid dt)
  | wait uuid dt pumping => exact keeps_spread (writes_waitStep hrule uuid dt pumping)

end Tasks

/-! ## Runs -/

namespace Process

section Runs

variable (hrule : RecordRule ok)

include hrule

/-- A new process on a data dir. -/
theorem boot_recorded {s : Manager} (h : Recorded ok s) (bootToken : PyStr) :
    (boot setup bootToken s).Keeps (Act.exec setup) (Recorded ok) where
  holds := h
  threads := by
    intro th hth
    obtain rfl := List.mem_singleton.mp hth
    exact Task.records hrule .construct

/-- Every step keeps the rule. -/
theorem step_recorded {P P' : Process} {l : Label} {es : List Event}
    (h : P.Keeps (Act.exec setup) (Recorded ok)) (hstep : step setup P l = some (P', es)) :
    P'.Keeps (Act.exec setup) (Recorded ok) := by
  cases l with
  | start task =>
      simp only [step] at hstep
      split at hstep
      · contradiction
      · cases hstep
        refine ⟨h.holds, fun th hth => ?_⟩
        rcases List.mem_append.mp hth with hmem | hnew
        · exact h.threads th hmem
        · obtain rfl := List.mem_singleton.mp hnew
          exact Task.records hrule task
  | turn i =>
      simp only [step] at hstep
      split at hstep
      · contradiction
      · obtain ⟨Q, hturn, hQ⟩ := Option.map_eq_some_iff.mp hstep
        cases hQ
        exact Pool.turn_keeps h hturn
  | abort i =>
      simp only [step] at hstep
      split at hstep
      · contradiction
      · cases hstep
        exact ⟨h.holds, fun th hth => h.threads th (List.mem_of_mem_eraseIdx hth)⟩
  | outside e =>
      obtain ⟨t, ht, hP⟩ := Option.map_eq_some_iff.mp hstep
      cases hP
      obtain ⟨⟨state, hstate⟩, -⟩ := Outside.happen_kept ht
      refine ⟨fun j hj => h.holds j ?_, h.threads⟩
      rw [hstate] at hj
      exact hj
  | crash token =>
      cases hstep
      exact boot_recorded hrule h.holds token

/-- **A rule on records holds in every reachable state.** -/
theorem recorded {bootToken : PyStr} {labels : List Label} {P : Process} {es : List Event}
    (hrun : (machine setup).exec labels (first setup bootToken) = some (P, es)) :
    Recorded ok P.shared :=
  ((machine setup).exec_invariant (I := fun P => P.Keeps (Act.exec setup) (Recorded ok))
    (fun _ _ _ _ h hstep => step_recorded hrule h hstep)
    (boot_recorded hrule (fun _ hj => by contradiction) bootToken) hrun).holds

end Runs

end Process
end FrigateXdna
