import FrigateXdna.Process

/-!
# One live job for each compile key

The transactions of the job manager check for a live job and insert the new one under
one lock, so none of them makes a second live job.  The row of a cache hit and the retry
that the pump opens right after a failure are inserted by single statements, behind
checks that may be stale by then.

Main results:

- Theorem {lit}`transaction_oneLive`: a transaction keeps one live job for each key.
- Theorem {lit}`one_live_iff`: all states of a run have at most one live job for each key
  exactly when no single statement makes a second one live.
-/

namespace FrigateXdna

open Python Library JobManager

/-! ## Live rows -/

/-- Whether a row is a live job of a key. -/
def liveFor (key : PyStr) (j : JobRow) : Bool :=
  j.compileKey == some key && !j.stage.terminal

/-- How many live jobs a key has. -/
def liveCount (r : Registry) (key : PyStr) : Nat :=
  r.jobs.countP (liveFor key)

/-- Every compile key has at most one live job. -/
def OneLive (s : Manager) : Prop :=
  ∀ key, key ≠ [] → liveCount s.registry key ≤ 1

/-- Failure records do not matter. -/
theorem liveCount_cores (r : Registry) (key : PyStr) :
    liveCount r key = r.cores.countP (liveFor key) := by
  simp only [liveCount, Registry.cores, List.countP_map]
  rfl

/-- A key without a newest live row has no live row. -/
theorem liveCount_eq_zero_of_hasLive {s : Manager} {key : PyStr} (hkey : key ≠ [])
    (h : hasLive s (some key) = false) : liveCount s.registry key = 0 := by
  have hnone : s.registry.liveJobForKey key = none := by
    simpa [hasLive, hkey] using h
  rw [Registry.liveJobForKey, newestBy_eq_none, List.filter_eq_nil_iff] at hnone
  exact List.countP_eq_zero.mpr hnone

/-- A key without an oldest live row has no live row. -/
theorem liveCount_eq_zero_of_oldestLive {s : Manager} {key : PyStr} (hkey : key ≠ [])
    (h : oldestLive s (some key) = none) : liveCount s.registry key = 0 := by
  simp only [oldestLive, Option.getD_some, List.isEmpty_iff, hkey, if_false,
    newestBy_eq_none, List.filter_eq_nil_iff] at h
  exact List.countP_eq_zero.mpr h

/-! ## Transactions -/

/-- A new row for a key stands beside no live row of the key. -/
def Alone (s : Manager) (new : Option NewJob) : Prop :=
  ∀ n ∈ new, ∀ key, n.compileKey = some key → key ≠ [] → liveCount s.registry key = 0

variable {setup : Setup} {s t : Manager}

theorem resumed_alone {ref : PyStr} {key : Option PyStr} {failed : JobRow} {held : Bool}
    {extra : Extra} : Alone s (resumed setup s ref key failed held extra) := by
  intro new hnew k hk hne
  by_cases hlive : hasLive s key = true
  · simp [resumed, resumable, hlive] at hnew
  · obtain rfl : key = some k := (resumed_compileKey hnew).symm.trans hk
    exact liveCount_eq_zero_of_hasLive hne (by simpa using hlive)

theorem created_alone {ref : PyStr} {key : Option PyStr} {extra : Extra} :
    Alone s (created setup s ref key extra) := by
  intro new hnew k hk hne
  unfold created at hnew
  split at hnew
  · rename_i hcond
    obtain rfl := Option.some.inj hnew
    obtain rfl : key = some k := hk
    rw [Bool.and_eq_true, Option.isNone_iff_eq_none] at hcond
    exact liveCount_eq_zero_of_oldestLive hne hcond.1
  · simp at hnew

theorem submitted_alone {ref : PyStr} {key : Option PyStr} {extra : Extra} :
    Alone s (submitted setup s ref key extra) := by
  unfold submitted
  split
  · exact created_alone
  · split
    · simp [Alone]
    · split
      · exact resumed_alone
      · split
        · simp [Alone]
        · exact created_alone

theorem retried_alone {uuid ref : PyStr} {key : Option PyStr} :
    Alone s (retried setup s uuid ref key) := by
  intro new hnew
  obtain ⟨full, -, hfull⟩ := Option.bind_eq_some_iff.mp hnew
  exact resumed_alone new hfull

theorem requeued_alone {ref : PyStr} {key : Option PyStr} :
    Alone s (requeued setup s ref key) := by
  intro new hnew k hk hne
  unfold requeued at hnew
  split at hnew
  · simp at hnew
  · split at hnew
    · simp at hnew
    · rename_i hcond
      split at hnew
      · obtain ⟨prev, -, rfl⟩ := Option.mem_map.mp hnew
        obtain rfl : key = some k := hk
        have hno : hasLive s (some k) = false := by
          simp only [Bool.or_eq_true, not_or] at hcond
          simpa using hcond.2
        exact liveCount_eq_zero_of_hasLive hne hno
      · simp at hnew

/-- A row that stands alone keeps one live job for each key. -/
theorem Grown.oneLive {new : Option NewJob} (h : OneLive s) (hgrown : Grown setup s t new)
    (halone : Alone s new) : OneLive t := by
  intro key hkey
  rw [liveCount_cores, hgrown, List.countP_append, ← liveCount_cores]
  cases new with
  | none => simpa using h key hkey
  | some n =>
      by_cases hn : n.compileKey = some key
      · rw [halone n rfl key hn hkey, Nat.zero_add]
        exact List.countP_le_length
      · have hzero : liveFor key (rowOf setup s n).core = false := by
          simp [liveFor, rowOf, JobRow.core, hn]
        simpa [hzero] using h key hkey

/-- **A transaction keeps one live job for each key.** -/
theorem transaction_oneLive (hfresh : Fresh setup s) (h : OneLive s) {a : Act}
    (ha : ∀ a', a ≠ .stmt a') : OneLive (a.exec setup s) := by
  cases a with
  | stmt a => exact absurd rfl (ha a)
  | submit ref key extra =>
      exact Grown.oneLive h (exec_submit_grown hfresh ref key extra) submitted_alone
  | resume uuid ref key =>
      exact Grown.oneLive h (exec_resume_grown hfresh uuid ref key) retried_alone
  | requeue ref key =>
      exact Grown.oneLive h (exec_requeue_grown hfresh ref key) requeued_alone

/-! ## Single statements -/

/-- A row that a statement makes live stands beside no live row of its key. -/
def InsertsAlone (s : Manager) : Stmt → Prop
  | .createJob row => Alone s (some row)
  | .setJob uuid stage _ =>
      stage.terminal = false → ∀ j ∈ s.registry.jobs, j.uuid = uuid →
        j.stage.terminal = true → ∀ key, j.compileKey = some key → key ≠ [] →
          liveCount s.registry key = 0
  | _ => True

/-- Rows with other ids stay as they are. -/
theorem map_of_not_mem {f : JobRow → JobRow} {rows : List JobRow} {uuid : PyStr}
    (h : uuid ∉ rows.map JobRow.uuid) :
    (rows.map fun x => if x.uuid = uuid then f x else x) = rows := by
  calc (rows.map fun x => if x.uuid = uuid then f x else x)
      = rows.map id := by
        refine List.map_congr_left fun x hx => if_neg ?_
        intro heq
        exact h (heq ▸ List.mem_map_of_mem hx)
    _ = rows := List.map_id rows

/-- How a count of rows changes with one row. -/
theorem countP_map_uuid (p : JobRow → Bool) (f : JobRow → JobRow) {rows : List JobRow}
    {j : JobRow} (hnodup : (rows.map JobRow.uuid).Nodup) (hj : j ∈ rows) :
    (rows.map fun x => if x.uuid = j.uuid then f x else x).countP p + (p j).toNat =
      rows.countP p + (p (f j)).toNat := by
  induction rows with
  | nil => contradiction
  | cons x rest ih =>
      rw [List.map_cons, List.nodup_cons] at hnodup
      rcases List.mem_cons.mp hj with rfl | hmem
      · rw [List.map_cons, if_pos rfl, map_of_not_mem hnodup.1, List.countP_cons,
          List.countP_cons]
        cases p j <;> cases p (f j) <;> simp
      · have hne : x.uuid ≠ j.uuid := by
          intro heq
          exact hnodup.1 (heq ▸ List.mem_map_of_mem hmem)
        have hrest := ih hnodup.2 hmem
        rw [List.map_cons, if_neg hne, List.countP_cons, List.countP_cons]
        omega

/-- **A stage that is written keeps one live job exactly when it revives no row beside
another.** -/
theorem setJob_oneLive_iff (hfresh : Fresh setup s) (h : OneLive s) (uuid : PyStr)
    (stage : Stage) (errorCode : Option PyStr) :
    OneLive ((Stmt.setJob uuid stage errorCode).exec setup s) ↔
      InsertsAlone s (.setJob uuid stage errorCode) := by
  let f : JobRow → JobRow := fun j =>
    { j with stage, errorCode, progress := none, updatedAt := s.now }
  have hcount : ∀ j ∈ s.registry.jobs, j.uuid = uuid → ∀ key,
      liveCount ((Stmt.setJob uuid stage errorCode).exec setup s).registry key +
          (liveFor key j).toNat =
        liveCount s.registry key + (liveFor key (f j)).toNat := by
    intro j hj hu key
    subst hu
    exact countP_map_uuid (liveFor key) f hfresh.nodup hj
  by_cases hex : ∃ j ∈ s.registry.jobs, j.uuid = uuid
  · obtain ⟨j, hj, hu⟩ := hex
    constructor
    · intro hlive hstage j hj hu hterminal key hkey hne
      have hsum := hcount j hj hu key
      have hafter := hlive key hne
      simp only [liveFor, f, hkey, hterminal, hstage, beq_self_eq_true, Bool.true_and,
        Bool.not_true, Bool.not_false, Bool.toNat_false, Bool.toNat_true] at hsum
      omega
    · intro hinsert key hne
      have hsum := hcount j hj hu key
      have hbefore := h key hne
      have hafter : (liveFor key (f j)).toNat ≤ 1 := Bool.toNat_le _
      by_cases hkey : j.compileKey = some key
      · cases hstage : stage.terminal with
        | true =>
            have hdead : liveFor key (f j) = false := by simp [liveFor, f, hstage]
            rw [hdead] at hsum
            simp only [Bool.toNat_false] at hsum
            omega
        | false =>
            cases hterminal : j.stage.terminal with
            | true =>
                have hzero := hinsert hstage j hj hu hterminal key hkey hne
                omega
            | false =>
                have halive : liveFor key j = true := by simp [liveFor, hkey, hterminal]
                rw [halive] at hsum
                simp only [Bool.toNat_true] at hsum
                omega
      · have hdead : liveFor key (f j) = false := by simp [liveFor, f, hkey]
        rw [hdead] at hsum
        simp only [Bool.toNat_false] at hsum
        omega
  · have hsame : ((Stmt.setJob uuid stage errorCode).exec setup s).registry.jobs =
        s.registry.jobs := by
      refine map_of_not_mem ?_
      intro hmem
      obtain ⟨j, hj, hu⟩ := List.mem_map.mp hmem
      exact hex ⟨j, hj, hu⟩
    refine iff_of_true ?_ fun _ j hj hu => absurd ⟨j, hj, hu⟩ hex
    intro key hne
    unfold liveCount
    rw [hsame]
    exact h key hne

/-- A statement that leaves the rows alone, or removes some. -/
theorem oneLive_of_sublist (h : OneLive s)
    (hsub : t.registry.jobs.Sublist s.registry.jobs) : OneLive t :=
  fun key hne => le_trans (hsub.countP_le) (h key hne)

/-- **A statement keeps one live job exactly when it inserts alone.** -/
theorem stmt_oneLive_iff (hfresh : Fresh setup s) (h : OneLive s) (a : Stmt) :
    OneLive (a.exec setup s) ↔ InsertsAlone s a := by
  cases a with
  | createJob row =>
      have hgrown : Grown setup s ((Stmt.createJob row).exec setup s) (some row) := by
        simp [Grown, Stmt.exec, Registry.createJob, Registry.cores, rowOf]
      refine ⟨fun hlive n hn key hkey hne => ?_, fun halone => Grown.oneLive h hgrown halone⟩
      obtain rfl := Option.some.inj hn
      have hafter := hlive key hne
      have hnew : liveFor key (rowOf setup s row).core = true := by
        simp [liveFor, rowOf, JobRow.core, hkey, Stage.terminal, Stage.terminalError]
      rw [liveCount_cores, hgrown, List.countP_append, ← liveCount_cores] at hafter
      simp only [Option.map_some, Option.toList_some, List.countP_singleton, hnew,
        if_true] at hafter
      omega
  | setJob uuid stage errorCode => exact setJob_oneLive_iff hfresh h uuid stage errorCode
  | setFailure uuid record =>
      refine iff_of_true (fun key hne => ?_) trivial
      rw [liveCount_cores, show ((Stmt.setFailure uuid record).exec setup s).registry.cores =
        s.registry.cores from Registry.setFailure_cores _ _ _ _, ← liveCount_cores]
      exact h key hne
  | deleteJob uuid => exact iff_of_true (oneLive_of_sublist h List.filter_sublist) trivial
  | addAlias uuid ref =>
      refine iff_of_true (oneLive_of_sublist h ?_) trivial
      simp only [Stmt.exec, Registry.addAlias]
      split <;> exact List.Sublist.refl _
  | upsertRef ref kind =>
      refine iff_of_true (oneLive_of_sublist h ?_) trivial
      simp only [Stmt.exec, Registry.upsertRef]
      split <;> exact List.Sublist.refl _
  | addSource row =>
      refine iff_of_true (oneLive_of_sublist h ?_) trivial
      simp only [Stmt.exec, Registry.addSource]
      split <;> exact List.Sublist.refl _
  | addArtifact row =>
      refine iff_of_true (oneLive_of_sublist h ?_) trivial
      simp only [Stmt.exec, Registry.addArtifact]
      split <;> exact List.Sublist.refl _
  | poll uuid dt =>
      refine iff_of_true (oneLive_of_sublist h ?_) trivial
      simp only [Stmt.exec]
      split <;> exact List.Sublist.refl _
  | _ => exact iff_of_true (oneLive_of_sublist h (List.Sublist.refl _)) trivial

/-! ## Runs of the process -/

namespace Process

/-- The statement that a step performs outside a transaction inserts alone. -/
def GuardedInsert (P : Process) (l : Label) : Prop :=
  ∀ a, action P l = some (.stmt a) → InsertsAlone P.shared a

/-- One step keeps one live job for each key exactly when its statement inserts alone. -/
theorem step_oneLive_iff {P P' : Process} {l : Label} {es : List Event}
    (hfresh : Fresh setup P.shared) (h : OneLive P.shared)
    (hstep : step setup P l = some (P', es)) :
    OneLive P'.shared ↔ GuardedInsert P l := by
  rcases step_cases hstep with ⟨hnone, hs, -⟩ | ⟨i, task, a, -, -, ha, hs, -⟩ |
    ⟨e, -, hnone, he, -⟩ | ⟨token, -, hnone, rfl, -⟩
  · refine iff_of_true (by rwa [hs]) fun a ha => ?_
    rw [hnone] at ha
    contradiction
  · rw [hs]
    cases a with
    | stmt a =>
        refine (stmt_oneLive_iff hfresh h a).trans ⟨fun hins a' ha' => ?_, fun hg => hg a ha⟩
        rw [ha] at ha'
        cases ha'
        exact hins
    | submit ref key extra =>
        refine iff_of_true (transaction_oneLive hfresh h fun _ => by simp) fun a ha' => ?_
        rw [ha] at ha'
        simp at ha'
    | resume uuid ref key =>
        refine iff_of_true (transaction_oneLive hfresh h fun _ => by simp) fun a ha' => ?_
        rw [ha] at ha'
        simp at ha'
    | requeue ref key =>
        refine iff_of_true (transaction_oneLive hfresh h fun _ => by simp) fun a ha' => ?_
        rw [ha] at ha'
        simp at ha'
  · refine iff_of_true ?_ fun a ha => ?_
    · obtain ⟨state, hstate⟩ := (Outside.happen_kept he).1
      unfold OneLive liveCount
      rw [hstate]
      exact h
    · rw [hnone] at ha
      contradiction
  · refine iff_of_true h fun a ha => ?_
    rw [hnone] at ha
    contradiction

/-- **One live job for each compile key.**  All states of a run have at most one live job
for each key exactly when every row that a single statement makes live, the row of a
cache hit or a retry of the pump, stands beside no live row of its key. -/
theorem one_live_iff {bootToken : PyStr} {labels : List Label} {P : Process}
    {es : List Event}
    (hrun : (machine setup).exec labels (first setup bootToken) = some (P, es)) :
    (machine setup).Throughout (fun P => OneLive P.shared) labels (first setup bootToken) ↔
      (machine setup).Along GuardedInsert labels (first setup bootToken) := by
  refine Machine.throughout_iff_along_of_invariant
    (fun P l P' es => step_fresh) (fun P l P' es => step_oneLive_iff)
    (first_fresh bootToken) ?_ hrun
  intro key _
  simp [liveCount, first, boot]

/-- An upload of a prepared model beside an admin preparation of a file with the same bytes,
each between the row of its cache hit and the stage of that row. -/
def twoHits : List Label :=
  samplePrepared ++
    [.start (.upload sampleModel),
      .start (.prepare (py "local://cam") (py "local") false (.bytes sampleModel .localFile))] ++
    turns 0 9 ++ turns 1 9

/-- An upload whose job a second ref with the same bytes joins. -/
def joinedUpload : List Label :=
  sampleUpload ++
    [.start (.prepare (py "local://cam") (py "local") false (.bytes sampleModel .localFile))] ++
    turns 0 11

/-- The run in which two refs share one live job. -/
theorem one_live_joinedUpload :
    ∃ P es, (machine sampleSetup).exec joinedUpload (first sampleSetup (py "boot")) =
        some (P, es) ∧
      (P.shared.registry.aliases = [(py "job-" ++ [0], py "local://cam")] ∧
        liveCount P.shared.registry sampleKey = 1) ∧
      ((machine sampleSetup).Throughout (fun P => OneLive P.shared) joinedUpload
          (first sampleSetup (py "boot")) ↔
        (machine sampleSetup).Along GuardedInsert joinedUpload
          (first sampleSetup (py "boot"))) := by
  have hends : (machine sampleSetup).endsIn joinedUpload (first sampleSetup (py "boot"))
      (fun P => P.shared.registry.aliases == [(py "job-" ++ [0], py "local://cam")] &&
        liveCount P.shared.registry sampleKey == 1) = true := by
    decide +kernel
  obtain ⟨P, es, hrun, hjoined⟩ := (machine sampleSetup).exists_exec_of_endsIn hends
  exact ⟨P, es, hrun, by simpa using hjoined, one_live_iff hrun⟩

/-- Two cache hits of one key stand in the registry as two live jobs. -/
theorem two_live_hits :
    ∃ P es, (machine sampleSetup).exec twoHits (first sampleSetup (py "boot")) =
      some (P, es) ∧ ¬ OneLive P.shared := by
  have hends : (machine sampleSetup).endsIn twoHits (first sampleSetup (py "boot"))
      (fun P => decide (1 < liveCount P.shared.registry sampleKey)) = true := by
    decide +kernel
  obtain ⟨P, es, hrun, hcount⟩ := (machine sampleSetup).exists_exec_of_endsIn hends
  refine ⟨P, es, hrun, fun h => ?_⟩
  have hle := h sampleKey (by decide)
  have hlt : 1 < liveCount P.shared.registry sampleKey := of_decide_eq_true hcount
  omega

end Process
end FrigateXdna
