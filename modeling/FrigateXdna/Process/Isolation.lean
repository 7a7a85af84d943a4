import FrigateXdna.Library.Faults
import FrigateXdna.Process
import FrigateXdna.Supervisor.Rows

/-!
# One failing job in the pump

{lit}`Supervisor.pump` in an environment whose polls and file operations may raise.  A
handler catches {lit}`FxdnaError`, and nothing else.

Main results:

- Theorem {lit}`pumpUnder_noFaults`: without faults it is {lit}`pump`.
- Theorem {lit}`pumpOneUnder_outcome`: how a turn of a job ends.
- Theorem {lit}`pump_isolates_iff`: a pump isolates the failures of its jobs exactly when each
  is an {lit}`FxdnaError`.
-/

namespace FrigateXdna

open Python Library

/-! ## Faults -/

/-- What the environment raises: at the poll of a job's backend, and at the file operations
of its publication. -/
structure Faults where
  poll : PyStr → Option Raised := fun _ => none
  publish : PyStr → Stmt → Option Raised := fun _ _ => none

/-- The file operations of a publication. -/
def Stmt.publishes : Stmt → Bool
  | .moveArtifact _ _ | .makeStaged _ | .stageModel _ _ | .stageManifest _ _
  | .commitStaged _ _ => true
  | _ => false

/-- The faults at a job's poll. -/
def Faults.atPoll (f : Faults) (uuid : PyStr) : Stmt → Option Raised
  | .poll _ _ => f.poll uuid
  | _ => none

/-- The faults at a job's publication. -/
def Faults.atPublish (f : Faults) (uuid : PyStr) (a : Stmt) : Option Raised :=
  if a.publishes then f.publish uuid a else none

variable (setup : Setup) (f : Faults)

/-! ## The pump -/

/-- {lit}`self.jobs.pump` of one job. -/
def advanceJob (uuid : PyStr) (dt : Int) : Prog JobRow :=
  (JobManager.pump setup uuid dt).failOn (f.atPoll uuid)

/-- {lit}`self._publish_result` of one job. -/
def publishJob (uuid : PyStr) (job : JobRow) : Prog Unit :=
  (publishResult setup job).failOn (f.atPublish uuid)

/-- A {lit}`PREPARED` job in {lit}`pump`. -/
def pumpPreparedUnder (uuid : PyStr) (job : JobRow) : Prog Unit := do
  let key := job.compileKey.getD []
  if key.isEmpty then
    exec (.setRefState job.ref (py "PREPARED"))
  else
    match ← (publishJob setup f uuid job).attempt with
    | .error (.fxdna e) => failJob uuid e
    | .error e => .raise e
    | .ok _ => markPreparedRefs key

/-- One job in {lit}`pump`. -/
def pumpOneUnder (uuid : PyStr) (dt : Int) : Prog Unit := do
  match ← (advanceJob setup f uuid dt).attempt with
  | .error (.fxdna e) => failJob uuid e
  | .error e => .raise e
  | .ok job =>
      if job.stage.terminalError then markJobRefs uuid job.stage
      else if job.stage == .prepared then pumpPreparedUnder setup f uuid job
      else return ()

/-- The turn of a job. -/
def turnBody (dt : Int) (row : JobRow) : ThreadProg Unit :=
  spread (pumpOneUnder setup f row.uuid dt)

/-- The jobs that a pump advances. -/
def liveRows (s : Manager) : List JobRow :=
  s.registry.jobs.filter fun j => !j.stage.terminal

/-- {lit}`Supervisor.pump`. -/
def pumpUnder (dt : Int) : ThreadProg Unit := do
  retryDue setup
  let rows ← spread (read liveRows)
  Program.forEach rows (turnBody setup f dt)

/-- **Without faults it is {lit}`pump`.** -/
theorem pumpUnder_noFaults (dt : Int) : pumpUnder setup {} dt = pump setup dt := by
  have hpoll : ∀ uuid, Faults.atPoll {} uuid = fun _ => none := by
    intro uuid
    funext a
    cases a <;> rfl
  have hpublish : ∀ uuid, Faults.atPublish {} uuid = fun _ => none := by
    intro uuid
    funext a
    rw [Faults.atPublish]
    split_ifs
    · rfl
    · rfl
  have hprepared : ∀ uuid job,
      pumpPreparedUnder setup {} uuid job = pumpPrepared setup uuid job := by
    intro uuid job
    rw [pumpPreparedUnder, publishJob, hpublish, Program.failOn_none]
    rfl
  have hone : ∀ uuid, pumpOneUnder setup {} uuid dt = pumpOne setup uuid dt := by
    intro uuid
    rw [pumpOneUnder, advanceJob, hpoll, Program.failOn_none]
    simp only [hprepared]
    rfl
  have hbody : turnBody setup {} dt = fun row => spread (pumpOne setup row.uuid dt) := by
    funext row
    rw [turnBody, hone]
  rw [pumpUnder, hbody]
  rfl

/-! ## What a pump should do -/

/-- The exception that the poll or the publication of a job raises in its turn. -/
def raisedBy (dt : Int) (uuid : PyStr) (s : Manager) : Option Raised :=
  match (advanceJob setup f uuid dt).run (Stmt.exec setup) s with
  | (_, .error e) => some e
  | (t, .ok job) =>
      if job.stage == .prepared && !(job.compileKey.getD []).isEmpty then
        match ((publishJob setup f uuid job).run (Stmt.exec setup) t).2 with
        | .error e => some e
        | .ok _ => none
      else none

/-- The state after {lit}`retry_due`. -/
def retried (s : Manager) : Manager :=
  ((retryDue setup).run (Act.exec setup) s).1

/-- The turns of the jobs in a pump. -/
def pumpTurns (dt : Int) (s : Manager) : List (Program.Turn Manager JobRow) :=
  Program.turns (Act.exec setup) (turnBody setup f dt) (liveRows (retried setup s))
    (retried setup s)

/-- A pump isolates the failures of its jobs: it returns, each job whose poll or publication
raised stands in a failed stage with its refs marked, and each other job that was not
terminal had its backend polled. -/
structure Isolates (dt : Int) (s : Manager) : Prop where
  returns : ((pumpUnder setup f dt).run (Act.exec setup) s).2 = .ok ()
  failed : ∀ t ∈ pumpTurns setup f dt s, (raisedBy setup f dt t.item.uuid t.before).isSome →
    ∃ stage, stage.terminalError = true ∧ RefsStandIn t.item.uuid stage t.after ∧
      StandsIn t.item.uuid stage ((pumpUnder setup f dt).run (Act.exec setup) s).1
  advanced : ∀ j ∈ s.registry.jobs, j.stage.terminal = false →
    ∃ t ∈ pumpTurns setup f dt s, t.item.uuid = j.uuid ∧
      (raisedBy setup f dt j.uuid t.before = none → (t.before.backends.lookup j.uuid).isSome →
        Act.stmt (.poll j.uuid dt) ∈ (pumpUnder setup f dt).performed (Act.exec setup) s)

/-! ## The parts of a turn -/

section Turn

variable {setup f} {s : Manager}

/-- Without a fault at its poll an advance is as it was. -/
theorem advanceJob_of_none {uuid : PyStr} (hfault : f.poll uuid = none) (dt : Int) :
    advanceJob setup f uuid dt = JobManager.pump setup uuid dt := by
  have hatPoll : f.atPoll uuid = fun _ => none := by
    funext a
    cases a with
    | poll _ _ => exact hfault
    | _ => rfl
  rw [advanceJob, hatPoll, Program.failOn_none]

/-- A fault at the poll is raised there, if there is a backend to poll. -/
theorem run_advanceJob_of_some {uuid : PyStr} {e : Raised} (hfault : f.poll uuid = some e)
    (dt : Int) (s : Manager) :
    (advanceJob setup f uuid dt).run (Stmt.exec setup) s =
      if (s.backends.lookup uuid).isSome then (s, .error e)
      else (JobManager.pump setup uuid dt).run (Stmt.exec setup) s := by
  have hread : ∀ {β : Type} (g : Manager → β), (read g).failOn (f.atPoll uuid) = read g :=
    fun g => rfl
  unfold advanceJob JobManager.pump
  rw [Program.failOn_bind, hread, Program.run_bind, run_read, Program.run_bind, run_read]
  dsimp only
  cases hbackend : s.backends.lookup uuid with
  | none =>
      dsimp only
      rw [Program.failOn_bind, hread, Program.run_bind, run_read, Program.run_bind, run_read]
      dsimp only
      cases s.registry.getJob uuid with
      | none => rfl
      | some job => rfl
  | some backend =>
      dsimp only
      rw [Program.failOn_bind, hread, Program.run_bind, run_read]
      dsimp only
      have hpoll : (JobManager.pollBackend uuid dt backend).failOn (f.atPoll uuid) =
          .raise e := by
        simp [JobManager.pollBackend, Program.failOn, Faults.atPoll, hfault]
      rw [Program.failOn_bind, hpoll]
      rfl

/-- An advance that gives a row has polled the backend. -/
theorem poll_mem_performed {uuid : PyStr} {dt : Int} {job : JobRow}
    (hbackend : (s.backends.lookup uuid).isSome)
    (hok : ((advanceJob setup f uuid dt).run (Stmt.exec setup) s).2 = .ok job) :
    Stmt.poll uuid dt ∈ (advanceJob setup f uuid dt).performed (Stmt.exec setup) s := by
  cases hfault : f.poll uuid with
  | some e =>
      rw [run_advanceJob_of_some hfault, if_pos hbackend] at hok
      contradiction
  | none =>
      obtain ⟨backend, hbackend⟩ := Option.isSome_iff_exists.mp hbackend
      rw [advanceJob_of_none hfault]
      unfold JobManager.pump
      rw [Program.performed_bind, run_read]
      dsimp only
      rw [hbackend]
      dsimp only
      rw [Program.performed_bind, run_read]
      dsimp only
      apply List.mem_append_right
      apply List.mem_append_right
      apply Program.mem_performed_bind
      exact List.mem_singleton_self _

/-- An advance keeps the rows of the other jobs. -/
theorem run_advanceJob (h : Fresh setup s) {uuid : PyStr}
    (hrow : ∃ j ∈ s.registry.jobs, j.uuid = uuid) (dt : Int) :
    KeepsRows setup (· ≠ uuid) s ((advanceJob setup f uuid dt).run (Stmt.exec setup) s).1 := by
  obtain ⟨t, job, hrun, hkeeps⟩ := run_pump h hrow dt
  cases hfault : f.poll uuid with
  | none =>
      rw [advanceJob_of_none hfault, hrun]
      exact hkeeps
  | some e =>
      rw [run_advanceJob_of_some hfault]
      split_ifs with hbackend
      · exact KeepsRows.refl h
      · rw [hrun]
        exact hkeeps

/-- So does a publication. -/
theorem run_publishJob (h : Fresh setup s) (uuid : PyStr) (job : JobRow)
    (quiet : PyStr → Prop) :
    KeepsRows setup quiet s ((publishJob setup f uuid job).run (Stmt.exec setup) s).1 :=
  KeepsJobs.run ((keepsJobs_publishResult job).failOn _) h

/-! ## A turn -/

/-- How a turn ends: normally if nothing was raised; normally, and with the job failed, after
an {lit}`FxdnaError`; and with any other exception. -/
def TurnEnds (uuid : PyStr) : Option Raised → Manager → Except Raised Unit → Prop
  | none, _, r => r = .ok ()
  | some (.fxdna _), t, r =>
      r = .ok () ∧ StandsIn uuid .compileFailed t ∧ RefsStandIn uuid .compileFailed t
  | some e, _, r => r = .error e

/-- The turn of a {lit}`PREPARED` job. -/
theorem pumpPreparedUnder_outcome (h : Fresh setup s) {uuid : PyStr}
    (hrow : ∃ j ∈ s.registry.jobs, j.uuid = uuid) (job : JobRow) :
    KeepsRows setup (· ≠ uuid) s
        ((pumpPreparedUnder setup f uuid job).run (Stmt.exec setup) s).1 ∧
      TurnEnds uuid
        (if (job.compileKey.getD []).isEmpty then none
          else match ((publishJob setup f uuid job).run (Stmt.exec setup) s).2 with
            | .error e => some e
            | .ok _ => none)
        ((pumpPreparedUnder setup f uuid job).run (Stmt.exec setup) s).1
        ((pumpPreparedUnder setup f uuid job).run (Stmt.exec setup) s).2 := by
  unfold pumpPreparedUnder
  dsimp only
  by_cases hkey : (job.compileKey.getD []).isEmpty = true
  · rw [if_pos hkey, if_pos hkey]
    exact ⟨(keepsJobs_exec rfl).run h, rfl⟩
  · rw [if_neg hkey, if_neg hkey, Program.run_bind, Program.run_attempt]
    have hpublish := run_publishJob (f := f) h uuid job (· ≠ uuid)
    rcases hrun : (publishJob setup f uuid job).run (Stmt.exec setup) s with ⟨t, r⟩
    rw [hrun] at hpublish
    cases r with
    | ok u =>
        obtain ⟨t', hmark, -⟩ := @run_setRefStates setup
          (refsForKey t.registry (job.compileKey.getD [])) (py "PREPARED") t
        have hmark : (markPreparedRefs (job.compileKey.getD [])).run (Stmt.exec setup) t =
            (t', .ok ()) := hmark
        have hkeeps : KeepsRows setup (· ≠ uuid) t _ :=
          (keepsJobs_markPreparedRefs (job.compileKey.getD [])).run hpublish.fresh
        exact ⟨hpublish.trans hkeeps, congrArg Prod.snd hmark⟩
    | error e =>
        cases e with
        | fxdna e =>
            obtain ⟨t', hfail, hkeeps, hstands, hrefs⟩ :=
              run_failJob hpublish.fresh (hpublish.present hrow) e
            dsimp only
            rw [hfail]
            exact ⟨hpublish.trans hkeeps, rfl, hstands, hrefs⟩
        | worker e => exact ⟨hpublish, rfl⟩
        | builtin e => exact ⟨hpublish, rfl⟩

/-- **How a turn of a job ends.** -/
theorem pumpOneUnder_outcome (h : Fresh setup s) {uuid : PyStr}
    (hrow : ∃ j ∈ s.registry.jobs, j.uuid = uuid) (dt : Int) :
    KeepsRows setup (· ≠ uuid) s
        ((pumpOneUnder setup f uuid dt).run (Stmt.exec setup) s).1 ∧
      TurnEnds uuid (raisedBy setup f dt uuid s)
        ((pumpOneUnder setup f uuid dt).run (Stmt.exec setup) s).1
        ((pumpOneUnder setup f uuid dt).run (Stmt.exec setup) s).2 := by
  have hadvance := run_advanceJob (f := f) h hrow dt
  unfold pumpOneUnder raisedBy
  rw [Program.run_bind, Program.run_attempt]
  rcases hrun : (advanceJob setup f uuid dt).run (Stmt.exec setup) s with ⟨t, r⟩
  rw [hrun] at hadvance
  cases r with
  | error e =>
      cases e with
      | fxdna e =>
          obtain ⟨t', hfail, hkeeps, hstands, hrefs⟩ :=
            run_failJob hadvance.fresh (hadvance.present hrow) e
          dsimp only
          rw [hfail]
          exact ⟨hadvance.trans hkeeps, rfl, hstands, hrefs⟩
      | worker e => exact ⟨hadvance, rfl⟩
      | builtin e => exact ⟨hadvance, rfl⟩
  | ok job =>
      dsimp only
      by_cases herror : job.stage.terminalError = true
      · have hprepared : (job.stage == .prepared) = false := by
          cases hstage : job.stage <;> simp_all [Stage.terminalError]
        obtain ⟨t', hmark, hkeeps, -⟩ := run_markJobRefs hadvance.fresh uuid job.stage (· ≠ uuid)
        rw [if_pos herror, hprepared, Bool.false_and, hmark]
        exact ⟨hadvance.trans hkeeps, rfl⟩
      · rw [if_neg herror]
        by_cases hprepared : (job.stage == .prepared) = true
        · obtain ⟨hkeeps, hends⟩ :=
            pumpPreparedUnder_outcome (f := f) hadvance.fresh (hadvance.present hrow) job
          rw [if_pos hprepared, hprepared, Bool.true_and]
          refine ⟨hadvance.trans hkeeps, ?_⟩
          by_cases hkey : (job.compileKey.getD []).isEmpty = true
          · simpa [hkey] using hends
          · simpa [hkey] using hends
        · rw [if_neg hprepared, Bool.eq_false_iff.mpr hprepared, Bool.false_and]
          exact ⟨hadvance, rfl⟩

/-! ## The pump -/

/-- A statement is an action. -/
theorem exec_stmt (a : Stmt) (s : Manager) : (Act.stmt a).exec setup s = a.exec setup s :=
  rfl

theorem turnBody_run (dt : Int) (row : JobRow) (s : Manager) :
    (turnBody setup f dt row).run (Act.exec setup) s =
      (pumpOneUnder setup f row.uuid dt).run (Stmt.exec setup) s :=
  Program.run_relabel (Stmt.exec setup) exec_stmt _ s

/-- A pump is the loop over the jobs, after {lit}`retry_due`. -/
theorem pumpUnder_run (h : Fresh setup s) (dt : Int) :
    (pumpUnder setup f dt).run (Act.exec setup) s =
      (Program.forEach (liveRows (retried setup s)) (turnBody setup f dt)).run (Act.exec setup)
        (retried setup s) := by
  obtain ⟨t, hrun, -⟩ := run_retryDue h
  rw [retried, hrun, pumpUnder, Program.run_bind_of_ok _ hrun]
  rfl

/-- The actions of the loop are actions of the pump. -/
theorem mem_performed_pumpUnder (h : Fresh setup s) {dt : Int} {a : Act}
    (ha : a ∈ (Program.forEach (liveRows (retried setup s)) (turnBody setup f dt)).performed
      (Act.exec setup) (retried setup s)) :
    a ∈ (pumpUnder setup f dt).performed (Act.exec setup) s := by
  obtain ⟨t, hrun, -⟩ := run_retryDue h
  rw [retried, hrun] at ha
  rw [pumpUnder, Program.performed_bind, hrun]
  exact List.mem_append_right _ (List.mem_cons_of_mem _ ha)

/-- The rows of the pumped jobs are there. -/
def Present (setup : Setup) (rows : List JobRow) (s : Manager) : Prop :=
  Fresh setup s ∧ ∀ row ∈ rows, ∃ j ∈ s.registry.jobs, j.uuid = row.uuid

theorem present_turn (dt : Int) {rows : List JobRow} {row : JobRow} (hrow : row ∈ rows)
    (h : Present setup rows s) :
    Present setup rows ((turnBody setup f dt row).run (Act.exec setup) s).1 := by
  have hkeeps := (pumpOneUnder_outcome (f := f) h.1 (h.2 row hrow) dt).1
  rw [turnBody_run]
  exact ⟨hkeeps.fresh, fun other hother => hkeeps.present (h.2 other hother)⟩

theorem present_liveRows (h : Fresh setup s) :
    Present setup (liveRows (retried setup s)) (retried setup s) := by
  obtain ⟨t, hrun, hkept⟩ := run_retryDue h
  rw [retried, hrun]
  exact ⟨hkept.fresh, fun row hrow => ⟨row, (List.mem_filter.mp hrow).1, rfl⟩⟩

/-- How the turns of a pump end. -/
theorem pumpTurns_outcome (h : Fresh setup s) {dt : Int} {t : Program.Turn Manager JobRow}
    (ht : t ∈ pumpTurns setup f dt s) :
    TurnEnds t.item.uuid (raisedBy setup f dt t.item.uuid t.before) t.after
      ((turnBody setup f dt t.item).run (Act.exec setup) t.before).2 := by
  obtain ⟨hitem, hafter⟩ := Program.turn_of_mem ht
  have hpresent := ((Program.turns_invariant
    (fun row hrow u hu => present_turn dt hrow hu) (present_liveRows h)).1 t ht).1
  have hends := (pumpOneUnder_outcome (f := f) hpresent.1 (hpresent.2 _ hitem) dt).2
  rw [hafter, turnBody_run]
  exact hends

/-- The later turns of a pump leave a failed job alone. -/
theorem standsIn_lasts (h : Fresh setup s) {dt : Int}
    (hok : ((pumpUnder setup f dt).run (Act.exec setup) s).2 = .ok ())
    {t : Program.Turn Manager JobRow} (ht : t ∈ pumpTurns setup f dt s) {stage : Stage}
    (hstands : StandsIn t.item.uuid stage t.after) :
    StandsIn t.item.uuid stage ((pumpUnder setup f dt).run (Act.exec setup) s).1 := by
  rw [pumpUnder_run h] at hok ⊢
  have hnodup : (liveRows (retried setup s)).Pairwise fun x y => x.uuid ≠ y.uuid :=
    List.pairwise_map.mp ((List.filter_sublist.map _).nodup (present_liveRows h).1.nodup)
  refine Program.turn_lasts (T := fun row u => StandsIn row.uuid stage u)
    (fun row hrow u hu => present_turn dt hrow hu) ?_ (present_liveRows h) hok ht hstands
  refine hnodup.imp_of_mem ?_
  intro x y _ hy hne u hu hx
  have hkeeps := (pumpOneUnder_outcome (f := f) hu.1 (hu.2 y hy) dt).1
  rw [turnBody_run]
  exact hkeeps.standsIn hne hx

/-- **A pump isolates the failures of its jobs** exactly when each is an
{lit}`FxdnaError`. -/
theorem pump_isolates_iff (h : Fresh setup s) (dt : Int) :
    Isolates setup f dt s ↔
      ∀ t ∈ pumpTurns setup f dt s, ∀ e,
        raisedBy setup f dt t.item.uuid t.before = some e → ∃ e', e = .fxdna e' := by
  constructor
  · intro hisolates t ht e hraised
    have hok := hisolates.returns
    rw [pumpUnder_run h, Program.run_forEach_ok_iff] at hok
    have hends := pumpTurns_outcome h ht
    rw [hraised, hok t ht] at hends
    cases e with
    | fxdna e' => exact ⟨e', rfl⟩
    | worker e' => contradiction
    | builtin e' => contradiction
  · intro hcaught
    have hok : ((pumpUnder setup f dt).run (Act.exec setup) s).2 = .ok () := by
      rw [pumpUnder_run h, Program.run_forEach_ok_iff]
      intro t ht
      have hends := pumpTurns_outcome h ht
      cases hraised : raisedBy setup f dt t.item.uuid t.before with
      | none =>
          rw [hraised] at hends
          exact hends
      | some e =>
          obtain ⟨e', rfl⟩ := hcaught t ht e hraised
          rw [hraised] at hends
          exact hends.1
    refine ⟨hok, ?_, ?_⟩
    · intro t ht hsome
      obtain ⟨e, hraised⟩ := Option.isSome_iff_exists.mp hsome
      obtain ⟨e', rfl⟩ := hcaught t ht e hraised
      have hends := pumpTurns_outcome h ht
      rw [hraised] at hends
      exact ⟨.compileFailed, rfl, hends.2.2, standsIn_lasts h hok ht hends.2.1⟩
    · intro j hj hlive
      obtain ⟨u, hretry, hkept⟩ := run_retryDue h
      obtain ⟨j', hj', huuid, hstage⟩ := hkept.rows j hj
      have hmem : j' ∈ liveRows (retried setup s) := by
        rw [retried, hretry]
        refine List.mem_filter.mpr ⟨hj', ?_⟩
        rw [hstage trivial, hlive]
        rfl
      obtain ⟨t, ht, rfl⟩ := Program.exists_turn_of_mem hmem (retried setup s)
      refine ⟨t, ht, huuid, fun hnone hbackend => ?_⟩
      rw [← huuid] at hnone hbackend ⊢
      have hadvance : ∃ job, ((advanceJob setup f t.item.uuid dt).run (Stmt.exec setup)
          t.before).2 = .ok job := by
        unfold raisedBy at hnone
        split at hnone
        · contradiction
        · rename_i job hrun
          exact ⟨job, by rw [hrun]⟩
      obtain ⟨job, hadvance⟩ := hadvance
      have hpoll := poll_mem_performed hbackend hadvance
      apply mem_performed_pumpUnder h
      rw [pumpUnder_run h] at hok
      apply Program.mem_performed_forEach hok ht
      rw [turnBody, spread, Program.performed_relabel (Stmt.exec setup) exec_stmt]
      apply List.mem_map_of_mem
      rw [pumpOneUnder]
      apply Program.mem_performed_bind
      rw [Program.performed_attempt]
      exact hpoll

end Turn

/-! ## Two jobs -/

/-- The statements that queue two jobs, each with a backend that is done at its first poll. -/
def queueTwo : List Stmt :=
  [.createJob { ref := py "a", compileKey := some (py "k1"), attempt := 1, sourceSha256 := none },
    .putBackend (py "job-" ++ [0]) (.fake
      { sourceSha256 := [], compileKey := py "k1", deviceRequired := false }),
    .createJob { ref := py "b", compileKey := some (py "k2"), attempt := 1, sourceSha256 := none },
    .putBackend (py "job-" ++ [1]) (.fake
      { sourceSha256 := [], compileKey := py "k2", deviceRequired := false })]

/-- Two queued jobs. -/
def twoJobs : Manager :=
  queueTwo.foldl (fun s a => a.exec sampleSetup s) {}

theorem twoJobs_fresh : Fresh sampleSetup twoJobs := by
  have hfirst : Fresh sampleSetup {} :=
    { minted := fun j hj => absurd hj List.not_mem_nil
      nodup := List.nodup_nil }
  have hall : ∀ (statements : List Stmt) (s : Manager), Fresh sampleSetup s →
      Fresh sampleSetup (statements.foldl (fun s a => a.exec sampleSetup s) s) := by
    intro statements
    induction statements with
    | nil => exact fun s hs => hs
    | cons a rest ih => exact fun s hs => ih _ (hs.stmt a).1
  exact hall queueTwo {} hfirst

/-- The first of them fails at its poll with an {lit}`FxdnaError`. -/
def refusedPoll : Faults where
  poll uuid :=
    if uuid = py "job-" ++ [0] then
      some (.fxdna ⟨exitCompileFailed, py "COMPILE_FAILED", py "compiler refused"⟩)
    else none

/-- The first of them fails at the first file of its artifact: the disk is full. -/
def fullDisk : Faults where
  publish uuid
    | .stageModel _ _ => if uuid = py "job-" ++ [0] then some (.builtin .osError) else none
    | _ => none

/-- Whether no turn of a pump raises anything but an {lit}`FxdnaError`. -/
def onlyFxdna (setup : Setup) (f : Faults) (dt : Int) (s : Manager) : Bool :=
  (pumpTurns setup f dt s).all fun t =>
    match raisedBy setup f dt t.item.uuid t.before with
    | none | some (.fxdna _) => true
    | _ => false

theorem pump_isolates_refusedPoll :
    Isolates sampleSetup refusedPoll 1 twoJobs ∧
      ((pumpTurns sampleSetup refusedPoll 1 twoJobs).any fun t =>
        (raisedBy sampleSetup refusedPoll 1 t.item.uuid t.before).isSome) = true := by
  have hcaught : onlyFxdna sampleSetup refusedPoll 1 twoJobs = true := by decide +kernel
  refine ⟨(pump_isolates_iff twoJobs_fresh 1).mpr fun t ht e hraised => ?_, by decide +kernel⟩
  have hturn := List.all_eq_true.mp hcaught t ht
  rw [hraised] at hturn
  cases e with
  | fxdna e' => exact ⟨e', rfl⟩
  | worker e' => contradiction
  | builtin e' => contradiction

/-- An {lit}`OSError` at the first job's artifact ends the pump before the second job. -/
theorem fullDisk_not_isolated :
    ¬ Isolates sampleSetup fullDisk 1 twoJobs ∧
      ((((pumpUnder sampleSetup fullDisk 1).run (Act.exec sampleSetup) twoJobs).1.backends.lookup
        (py "job-" ++ [1])).map Backend.state) = some .queued := by
  constructor
  · intro h
    have hraises : ((pumpUnder sampleSetup fullDisk 1).run (Act.exec sampleSetup)
        twoJobs).2.isOk = false := by decide +kernel
    rw [h.returns] at hraises
    contradiction
  · decide +kernel

end FrigateXdna
