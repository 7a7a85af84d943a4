import FrigateXdna.Compiler.Jobs

/-!
# The attempts that a transaction opens

Whether {lit}`submit`, {lit}`requeue` or one row of {lit}`retry_due` opens a compile
attempt is a function of the registry it finds.  This file says which function, and that
nothing else changes about the rows except their failure records.

Main results:

- Theorem {lit}`Fresh.act`: the ids of the rows stay different.
- Theorem {lit}`exec_submit_grown`, {lit}`exec_resume_grown`,
  {lit}`exec_requeue_grown`: a transaction adds exactly the attempt it opens.
- Theorem {lit}`Act.transaction_invariant`: a transaction performs statements about jobs
  only.
-/

namespace FrigateXdna

open Python Library

/-! ## Rows -/

/-- A row without its failure record. -/
def JobRow.core (j : JobRow) : JobRow :=
  { j with failure := none, updatedAt := 0 }

@[simp]
theorem JobRow.core_uuid (j : JobRow) : j.core.uuid = j.uuid :=
  rfl

@[simp]
theorem JobRow.core_stage (j : JobRow) : j.core.stage = j.stage :=
  rfl

@[simp]
theorem JobRow.core_compileKey (j : JobRow) : j.core.compileKey = j.compileKey :=
  rfl

/-- The rows without their failure records. -/
def Registry.cores (r : Registry) : List JobRow :=
  r.jobs.map JobRow.core

/-- A failure record leaves the rest of the rows alone. -/
@[simp]
theorem Registry.setFailure_cores (r : Registry) (uuid : PyStr) (record : Failure)
    (now : Int) : (r.setFailure uuid record now).cores = r.cores := by
  simp only [Registry.cores, Registry.setFailure, Registry.modifyJob, List.map_map]
  refine List.map_congr_left fun j _ => ?_
  by_cases h : j.uuid = uuid <;> simp [h, JobRow.core]

/-! ## Job ids -/

/-- The only row with an id is found under it. -/
theorem find_uuid {rows : List JobRow} (hnodup : (rows.map JobRow.uuid).Nodup)
    {j : JobRow} (hj : j ∈ rows) : rows.find? (fun x => x.uuid == j.uuid) = some j := by
  induction rows with
  | nil => contradiction
  | cons x rest ih =>
      rw [List.map_cons, List.nodup_cons] at hnodup
      rcases List.mem_cons.mp hj with rfl | hmem
      · simp
      · have hne : x.uuid ≠ j.uuid := by
          intro heq
          exact hnodup.1 (heq ▸ List.mem_map_of_mem hmem)
        rw [List.find?_cons_of_neg (by simpa using hne)]
        exact ih hnodup.2 hmem

/-- The job ids are those that were handed out, and no two rows share one. -/
structure Fresh (setup : Setup) (s : Manager) : Prop where
  minted : ∀ j ∈ s.registry.jobs, ∃ n < s.minted, j.uuid = setup.uuid4 n
  nodup : (s.registry.jobs.map JobRow.uuid).Nodup

namespace Fresh

variable {setup : Setup} {s t : Manager}

/-- The next id is not in use. -/
theorem next (h : Fresh setup s) {j : JobRow} (hj : j ∈ s.registry.jobs) :
    j.uuid ≠ setup.uuid4 s.minted := by
  obtain ⟨n, hn, hu⟩ := h.minted j hj
  rw [hu]
  intro heq
  exact absurd (setup.uuid4_injective heq) (by omega)

/-- The same ids, and no fewer handed out. -/
theorem of_uuids (h : Fresh setup s)
    (hsub : (t.registry.jobs.map JobRow.uuid).Sublist (s.registry.jobs.map JobRow.uuid))
    (hle : s.minted ≤ t.minted) : Fresh setup t where
  minted j hj := by
    obtain ⟨old, hold, hu⟩ := List.mem_map.mp (hsub.subset (List.mem_map_of_mem hj))
    obtain ⟨n, hn, hn'⟩ := h.minted old hold
    exact ⟨n, by omega, by rw [← hu, hn']⟩
  nodup := hsub.nodup h.nodup

/-- A row is found under its id. -/
theorem getJob (h : Fresh setup s) {j : JobRow} (hj : j ∈ s.registry.jobs) :
    s.registry.getJob j.uuid = some j :=
  find_uuid h.nodup hj

/-- The rows after an update of one job have the same ids. -/
theorem modify (h : Fresh setup s) (uuid : PyStr) {f : JobRow → JobRow}
    (hf : ∀ j, (f j).uuid = j.uuid) (ht : t.registry.jobs = (s.registry.modifyJob uuid f).jobs)
    (hle : s.minted ≤ t.minted) : Fresh setup t := by
  have huuids : t.registry.jobs.map JobRow.uuid = s.registry.jobs.map JobRow.uuid := by
    rw [ht, Registry.modifyJob, List.map_map]
    refine List.map_congr_left fun j _ => ?_
    by_cases hu : j.uuid = uuid <;> simp [hu, hf]
  exact h.of_uuids (by rw [huuids]) hle

/-- The same rows. -/
theorem same (h : Fresh setup s) (ht : t.registry.jobs = s.registry.jobs)
    (hle : s.minted ≤ t.minted) : Fresh setup t :=
  h.of_uuids (by rw [ht]) hle

/-- Every statement keeps the ids different. -/
theorem stmt (h : Fresh setup s) (a : Stmt) :
    Fresh setup (a.exec setup s) ∧ s.minted ≤ (a.exec setup s).minted := by
  cases a with
  | createJob row =>
      refine ⟨⟨fun j hj => ?_, ?_⟩, by simp [Stmt.exec]⟩
      · rcases List.mem_append.mp hj with hold | hnew
        · obtain ⟨n, hn, hu⟩ := h.minted j hold
          exact ⟨n, by simp only [Stmt.exec]; omega, hu⟩
        · obtain rfl := List.mem_singleton.mp hnew
          exact ⟨s.minted, by simp [Stmt.exec], rfl⟩
      · simp only [Stmt.exec, Registry.createJob, List.map_append, List.map_cons,
          List.map_nil]
        refine List.nodup_append.mpr ⟨h.nodup, by simp, ?_⟩
        intro u hu v hv
        obtain ⟨j, hj, rfl⟩ := List.mem_map.mp hu
        obtain rfl := List.mem_singleton.mp hv
        exact h.next hj
  | setJob uuid stage errorCode =>
      refine ⟨h.modify uuid ?_ rfl le_rfl, le_rfl⟩
      exact fun j => rfl
  | setFailure uuid record =>
      refine ⟨h.modify uuid ?_ rfl le_rfl, le_rfl⟩
      exact fun j => rfl
  | deleteJob uuid =>
      exact ⟨h.of_uuids (List.Sublist.map _ List.filter_sublist) le_rfl, le_rfl⟩
  | addAlias uuid ref =>
      refine ⟨h.same ?_ le_rfl, le_rfl⟩
      simp only [Stmt.exec, Registry.addAlias]
      split <;> rfl
  | upsertRef ref kind =>
      refine ⟨h.same ?_ le_rfl, le_rfl⟩
      simp only [Stmt.exec, Registry.upsertRef]
      split <;> rfl
  | addSource row =>
      refine ⟨h.same ?_ le_rfl, le_rfl⟩
      simp only [Stmt.exec, Registry.addSource]
      split <;> rfl
  | addArtifact row =>
      refine ⟨h.same ?_ le_rfl, le_rfl⟩
      simp only [Stmt.exec, Registry.addArtifact]
      split <;> rfl
  | poll uuid dt =>
      simp only [Stmt.exec]
      split <;> exact ⟨h.same rfl le_rfl, le_rfl⟩
  | _ => exact ⟨h.same rfl le_rfl, le_rfl⟩

/-- Every transaction keeps the ids different. -/
theorem transaction {β : Type} (h : Fresh setup s) (p : Prog β) :
    Fresh setup (FrigateXdna.transaction setup p s).1 := by
  have hrun : Fresh setup (p.run (Stmt.exec setup) s).1 ∧
      s.minted ≤ (p.run (Stmt.exec setup) s).1.minted := by
    refine Program.run_invariant (Stmt.exec setup)
      (I := fun t => Fresh setup t ∧ s.minted ≤ t.minted) ?_ p ⟨h, le_rfl⟩
    intro a t ht
    obtain ⟨hfresh, hle⟩ := ht.1.stmt a
    exact ⟨hfresh, le_trans ht.2 hle⟩
  unfold FrigateXdna.transaction
  split
  · rename_i s' b heq
    rw [heq] at hrun
    exact hrun.1
  · rename_i s' e heq
    rw [heq] at hrun
    exact h.same rfl hrun.2

/-- Every action keeps the ids different. -/
theorem act (h : Fresh setup s) (a : Act) : Fresh setup (a.exec setup s) := by
  cases a with
  | stmt a => exact (h.stmt a).1
  | submit ref key extra => exact h.transaction _
  | resume uuid ref key => exact h.transaction _
  | requeue ref key => exact h.transaction _

/-- Every outside event keeps the ids different. -/
theorem happen (h : Fresh setup s) {e : Outside} (he : e.happen setup s = some t) :
    Fresh setup t := by
  obtain ⟨⟨state, hstate⟩, -, -, -, hminted, -, -⟩ := Outside.happen_kept he
  exact h.same (by rw [hstate]) (by rw [hminted])

end Fresh

/-! ## Runs of the small programs -/

@[simp]
theorem run_read {β : Type} (setup : Setup) (f : Manager → β) (s : Manager) :
    (read f).run (Stmt.exec setup) s = (s, .ok (f s)) :=
  rfl

@[simp]
theorem run_exec (setup : Setup) (a : Stmt) (s : Manager) :
    (exec a).run (Stmt.exec setup) s = (a.exec setup s, .ok ()) :=
  rfl

namespace JobManager

variable {setup : Setup} {s : Manager}

/-- The row that {lit}`create_job` inserts. -/
def rowOf (setup : Setup) (s : Manager) (new : NewJob) : JobRow where
  uuid := setup.uuid4 s.minted
  ref := new.ref
  compileKey := new.compileKey
  stage := .queued
  attempt := new.attempt
  createdAt := s.now
  updatedAt := s.now
  bootToken := some s.bootToken
  progress := none
  errorCode := none
  failure := none
  sourceSha256 := new.sourceSha256

/-- What changed about the rows: the attempt that was opened, if one was, and failure
records. -/
def Grown (setup : Setup) (s t : Manager) (new : Option NewJob) : Prop :=
  t.registry.cores = s.registry.cores ++ (new.map fun n => (rowOf setup s n).core).toList

/-- Nothing was opened. -/
theorem Grown.of_cores {t : Manager} (h : t.registry.cores = s.registry.cores) :
    Grown setup s t none := by
  simpa [Grown] using h

/-- Failure records do not matter. -/
theorem Grown.setFailure {t : Manager} {new : Option NewJob} (h : Grown setup s t new)
    (uuid : PyStr) (record : Failure) :
    Grown setup s ((Stmt.setFailure uuid record).exec setup t) new := by
  unfold Grown at h ⊢
  rw [← h]
  exact Registry.setFailure_cores _ _ _ _

theorem run_someJob (h : Fresh setup s) {j : JobRow} (hj : j ∈ s.registry.jobs) :
    (someJob j.uuid).run (Stmt.exec setup) s = (s, .ok j) := by
  unfold someJob
  rw [Program.run_bind, run_read]
  simp [h.getJob hj]

/-- Aliases of a job. -/
theorem run_forEach_addAlias (uuid : PyStr) (refs : List PyStr) (s : Manager) :
    ∃ aliases, (Program.forEach refs fun alias_ => exec (.addAlias uuid alias_)).run
      (Stmt.exec setup) s = ({ s with registry := { s.registry with aliases } }, .ok ()) := by
  induction refs generalizing s with
  | nil => exact ⟨s.registry.aliases, rfl⟩
  | cons ref rest ih =>
      have hone : ∃ aliases, (Stmt.addAlias uuid ref).exec setup s =
          { s with registry := { s.registry with aliases } } := by
        simp only [Stmt.exec, Registry.addAlias]
        split
        · exact ⟨s.registry.aliases, rfl⟩
        · exact ⟨_, rfl⟩
      obtain ⟨first, hfirst⟩ := hone
      obtain ⟨aliases, hrest⟩ := ih { s with registry := { s.registry with aliases := first } }
      refine ⟨aliases, ?_⟩
      change (Program.forEach rest _).run (Stmt.exec setup)
        ((Stmt.addAlias uuid ref).exec setup s) = _
      rw [hfirst, hrest]

theorem run_carryAliases (uuid ref prevUuid : PyStr) (s : Manager) :
    ∃ aliases, (carryAliases uuid ref prevUuid).run (Stmt.exec setup) s =
      ({ s with registry := { s.registry with aliases } }, .ok ()) := by
  unfold carryAliases
  rw [Program.run_bind, run_read]
  exact run_forEach_addAlias uuid _ s

/-! ## Backends that can be constructed -/

/-- Whether the stored file of a source is there. -/
def storedSource (s : Manager) (sha256 : PyStr) : Bool :=
  (s.registry.getSource sha256).any fun src =>
    (s.disk.sources.lookup (src.sha256, src.fileName)).isSome

/-- Whether the backend factory accepts. -/
def constructible (setup : Setup) (s : Manager) (kw : BackendArgs) : Bool :=
  !(setup.real && !kw.compileKey.isEmpty) || kw.sourcePath.isSome ||
    storedSource s kw.sourceSha256

theorem run_compileSourcePath (sha256 : PyStr) (s : Manager) :
    ∃ r, (compileSourcePath sha256).run (Stmt.exec setup) s = (s, r) ∧
      (storedSource s sha256 = true ↔ ∃ path, r = .ok path) := by
  unfold compileSourcePath storedSource
  rw [Program.run_bind, run_read]
  cases s.registry.getSource sha256 with
  | none => exact ⟨_, rfl, by simp⟩
  | some src =>
      dsimp only
      rw [Program.run_bind, run_read]
      dsimp only
      by_cases hfile : (s.disk.sources.lookup (src.sha256, src.fileName)).isSome = true
      · rw [if_pos hfile]
        exact ⟨_, rfl, by simp [hfile]⟩
      · rw [if_neg hfile]
        exact ⟨_, rfl, by simp [hfile]⟩

/-- The backend factory changes nothing. -/
theorem run_makeBackendJob (kw : BackendArgs) (s : Manager) :
    ∃ r, (makeBackendJob setup kw).run (Stmt.exec setup) s = (s, r) ∧
      (constructible setup s kw = true ↔ ∃ backend, r = .ok backend) := by
  unfold makeBackendJob constructible
  by_cases hreal : (setup.real && !kw.compileKey.isEmpty) = true
  · rw [if_pos hreal]
    cases hpath : kw.sourcePath with
    | some path => exact ⟨_, rfl, by simp⟩
    | none =>
        dsimp only
        obtain ⟨r, hrun, hr⟩ := @run_compileSourcePath setup kw.sourceSha256 s
        rw [Program.run_bind, hrun]
        cases r with
        | ok path => exact ⟨_, rfl, by simp [hr]⟩
        | error e => exact ⟨_, rfl, by simp [hreal, hr]⟩
  · rw [if_neg hreal]
    exact ⟨_, rfl, by simp [hreal]⟩

/-! ## New attempts -/

/-- The attempt after a failed one. -/
def nextAttempt (ref : PyStr) (key : Option PyStr) (prev : Failure)
    (sourceSha256 : Option PyStr) : NewJob where
  ref := ref
  compileKey := key
  attempt := prev.attempts.getD 0 + 1
  sourceSha256 := sourceSha256

/-- What the backend factory gets for it. -/
def attemptArgs (key : Option PyStr) (held : Bool) (extra : Extra)
    (sourceSha256 : Option PyStr) : BackendArgs where
  sourceSha256 := (extra.sourceSha256.or sourceSha256).getD []
  compileKey := key.getD []
  sourcePath := extra.sourcePath
  deviceHeldByWorker := held

/-- A refused construction removes the new row again. -/
theorem run_spawnBackend (uuid : PyStr) (kw : BackendArgs) (prevUuid : PyStr)
    (s : Manager) :
    (constructible setup s kw = true ∧ ∃ backend,
      (spawnBackend setup uuid kw prevUuid).run (Stmt.exec setup) s =
        ((Stmt.putBackend uuid backend).exec setup s, .ok true)) ∨
    (constructible setup s kw = false ∧ ∃ t,
      (spawnBackend setup uuid kw prevUuid).run (Stmt.exec setup) s = (t, .ok false) ∧
        t.registry.cores = (s.registry.deleteJob uuid).cores) := by
  obtain ⟨r, hrun, hr⟩ := @run_makeBackendJob setup kw s
  unfold spawnBackend
  rw [Program.run_bind, Program.run_attempt, hrun]
  cases r with
  | ok backend => exact Or.inl ⟨by simp [hr], backend, rfl⟩
  | error e =>
      refine Or.inr ⟨by simpa using hr, ?_⟩
      dsimp only
      rw [Program.run_bind, run_exec]
      dsimp only
      rw [Program.run_bind, run_read]
      dsimp only
      split
      · exact ⟨_, rfl, rfl⟩
      · exact ⟨_, rfl, Registry.setFailure_cores _ _ _ _⟩

/-- Removing the newest row. -/
theorem deleteJob_rowOf (h : Fresh setup s) {r : Registry} {new : NewJob}
    (hr : r.cores = s.registry.cores ++ [(rowOf setup s new).core]) :
    (r.deleteJob (setup.uuid4 s.minted)).cores = s.registry.cores := by
  have hfilter : (r.deleteJob (setup.uuid4 s.minted)).cores =
      r.cores.filter fun j => !(j.uuid == setup.uuid4 s.minted) := by
    simp only [Registry.deleteJob, Registry.cores, List.filter_map]
    rfl
  rw [hfilter, hr, List.filter_append]
  have hold : s.registry.cores.filter (fun j => !(j.uuid == setup.uuid4 s.minted)) =
      s.registry.cores := by
    refine List.filter_eq_self.mpr fun j hj => ?_
    obtain ⟨old, hmem, rfl⟩ := List.mem_map.mp hj
    simpa using h.next hmem
  rw [hold]
  simp [rowOf, JobRow.core]

/-- **One new attempt.**  It stands in the registry exactly when its backend could be
constructed. -/
theorem run_newAttempt (h : Fresh setup s) (ref : PyStr) (key : Option PyStr)
    (prev : Failure) (held : Bool) (extra : Extra) (prevUuid : PyStr)
    (sourceSha256 : Option PyStr) :
    (constructible setup s (attemptArgs key held extra sourceSha256) = true ∧ ∃ t row,
      (newAttempt setup ref key prev held extra prevUuid sourceSha256).run
        (Stmt.exec setup) s = (t, .ok (some row)) ∧
      Grown setup s t (some (nextAttempt ref key prev sourceSha256))) ∨
    (constructible setup s (attemptArgs key held extra sourceSha256) = false ∧ ∃ t,
      (newAttempt setup ref key prev held extra prevUuid sourceSha256).run
        (Stmt.exec setup) s = (t, .ok none) ∧ Grown setup s t none) := by
  let new := nextAttempt ref key prev sourceSha256
  let uuid := setup.uuid4 s.minted
  let record : Failure := { resumedFrom := some prevUuid, history := some (prev.history.getD []) }
  let s₁ := (Stmt.createJob new).exec setup s
  let s₂ := (Stmt.setFailure uuid record).exec setup s₁
  have hfresh₂ : Fresh setup s₂ := ((h.stmt (.createJob new)).1.stmt _).1
  have hcores₂ : s₂.registry.cores = s.registry.cores ++ [(rowOf setup s new).core] := by
    rw [show s₂.registry.cores = s₁.registry.cores from Registry.setFailure_cores _ _ _ _]
    simp [s₁, Stmt.exec, Registry.createJob, Registry.cores, rowOf]
  obtain ⟨aliases, haliases⟩ := @run_carryAliases setup uuid ref prevUuid s₂
  let s₃ : Manager := { s₂ with registry := { s₂.registry with aliases } }
  have hfresh₃ : Fresh setup s₃ := hfresh₂.same rfl le_rfl
  have hprogram : (newAttempt setup ref key prev held extra prevUuid sourceSha256).run
      (Stmt.exec setup) s =
      ((spawnBackend setup uuid (attemptArgs key held extra sourceSha256) prevUuid >>=
        fun ok => if ok then (do
            exec (.setRefState ref (py "QUEUED"))
            let job ← someJob uuid
            return some job)
          else return none).run (Stmt.exec setup) s₃) := by
    unfold newAttempt
    change ((carryAliases uuid ref prevUuid >>= fun _ => _).run (Stmt.exec setup) s₂) = _
    rw [Program.run_bind_of_ok _ haliases]
    rfl
  rw [hprogram]
  rcases @run_spawnBackend setup uuid (attemptArgs key held extra sourceSha256)
    prevUuid s₃ with ⟨hok, backend, hspawn⟩ | ⟨hno, t, hspawn, ht⟩
  · refine Or.inl ⟨hok, ?_⟩
    let s₄ := (Stmt.putBackend uuid backend).exec setup s₃
    let s₅ := (Stmt.setRefState ref (py "QUEUED")).exec setup s₄
    have hfresh₅ : Fresh setup s₅ := hfresh₃.same rfl le_rfl
    obtain ⟨row, hrow, hcore⟩ : ∃ row ∈ s₅.registry.jobs, row.uuid = uuid := by
      have hmem : (rowOf setup s new).core ∈ s₂.registry.cores := by
        rw [hcores₂]
        simp
      obtain ⟨row, hrow, hcore⟩ := List.mem_map.mp hmem
      exact ⟨row, hrow, (congrArg JobRow.uuid hcore : _)⟩
    rw [Program.run_bind_of_ok _ hspawn]
    refine ⟨s₅, row, ?_, hcores₂⟩
    rw [if_pos rfl, Program.run_bind, run_exec]
    have hjob := run_someJob hfresh₅ hrow
    rw [hcore] at hjob
    dsimp only
    rw [Program.run_bind_of_ok _ hjob]
    rfl
  · refine Or.inr ⟨hno, t, ?_, ?_⟩
    · rw [Program.run_bind_of_ok _ hspawn]
      rfl
    · exact Grown.of_cores (ht.trans (deleteJob_rowOf h hcores₂))

/-! ## Which attempt is opened -/

/-- The record from which a failed job may be resumed now. -/
def resumable (s : Manager) (key : Option PyStr) (failed : JobRow) : Option Failure :=
  if hasLive s key || s.registry.state.inhibition.isSome then none
  else failed.failure.filter fun record =>
    (autoEligible s.memlockAdequate (some record) s.now).1

/-- The attempt that {lit}`_maybe_resume` opens. -/
def resumed (setup : Setup) (s : Manager) (ref : PyStr) (key : Option PyStr)
    (failed : JobRow) (held : Bool) (extra : Extra) : Option NewJob :=
  let source := orText extra.sourceSha256 failed.sourceSha256
  if constructible setup s (attemptArgs key held extra source) then
    (resumable s key failed).map fun record => nextAttempt ref key record source
  else none

/-- **One resumption.**  It opens the attempt that {lit}`resumed` names, or none. -/
theorem run_maybeResume (h : Fresh setup s) (ref : PyStr) (key : Option PyStr)
    (failed : JobRow) (held : Bool) (extra : Extra) :
    ∃ t r, (maybeResume setup ref key failed held extra).run (Stmt.exec setup) s =
      (t, .ok r) ∧ Grown setup s t (resumed setup s ref key failed held extra) := by
  unfold maybeResume resumed resumable
  rw [Program.run_bind, run_read]
  dsimp only
  by_cases hlive : hasLive s key = true
  · rw [if_pos hlive]
    exact ⟨s, none, rfl, by simp [hlive, Grown]⟩
  · rw [if_neg hlive, Program.run_bind, run_read]
    dsimp only
    by_cases hinh : s.registry.state.inhibition.isSome = true
    · rw [if_pos hinh]
      exact ⟨s, none, rfl, by simp [hinh, Grown]⟩
    · rw [if_neg hinh]
      cases hrecord : failed.failure with
      | none => exact ⟨s, none, rfl, by simp [Grown]⟩
      | some record =>
          dsimp only
          rw [Program.run_bind, run_read]
          dsimp only
          by_cases heligible : (autoEligible s.memlockAdequate (some record) s.now).1 = true
          · rw [if_pos heligible]
            rcases run_newAttempt h ref key record held extra failed.uuid
              (orText extra.sourceSha256 failed.sourceSha256) with
              ⟨hok, t, row, hrun, hgrown⟩ | ⟨hno, t, hrun, hgrown⟩
            · refine ⟨_, some row, Program.run_bind_of_ok _ hrun _, ?_⟩
              have hsome : (if hasLive s key || s.registry.state.inhibition.isSome then none
                  else Option.filter (fun record =>
                    (autoEligible s.memlockAdequate (some record) s.now).1) (some record)) =
                  some record := by
                simp [hlive, hinh, heligible]
              rw [if_pos hok, hsome]
              exact hgrown.setFailure _ _
            · refine ⟨t, none, Program.run_bind_of_ok _ hrun _, ?_⟩
              rw [hno]
              exact hgrown
          · rw [if_neg heligible]
            exact ⟨s, none, rfl, by simp [heligible, Grown]⟩

/-- What the backend factory gets for a first attempt. -/
def createArgs (setup : Setup) (key : Option PyStr) (extra : Extra) : BackendArgs where
  sourceSha256 := extra.sourceSha256.getD []
  compileKey := key.getD []
  sourcePath := extra.sourcePath
  deviceHeldByWorker := setup.fakeCompile.deviceRequired

/-- The first attempt that is created when no live job can be joined. -/
def created (setup : Setup) (s : Manager) (ref : PyStr) (key : Option PyStr)
    (extra : Extra) : Option NewJob :=
  if (oldestLive s key).isNone && constructible setup s (createArgs setup key extra) then
    some { ref, compileKey := key, attempt := 1, sourceSha256 := extra.sourceSha256 }
  else none

/-- The attempt that {lit}`submit` opens. -/
def submitted (setup : Setup) (s : Manager) (ref : PyStr) (key : Option PyStr)
    (extra : Extra) : Option NewJob :=
  match s.registry.findJob ref key with
  | none => created setup s ref key extra
  | some existing =>
      if !existing.stage.terminal then none
      else if existing.stage.terminalError then
        resumed setup s ref key existing setup.fakeCompile.deviceRequired extra
      else if !(key.getD []).isEmpty && (s.registry.getArtifact (key.getD [])).isSome then none
      else created setup s ref key extra

/-- A resumption is for the key it was asked for. -/
theorem resumed_compileKey {ref : PyStr} {key : Option PyStr} {failed : JobRow}
    {held : Bool} {extra : Extra} {new : NewJob}
    (h : resumed setup s ref key failed held extra = some new) : new.compileKey = key := by
  simp only [resumed] at h
  split at h
  · obtain ⟨record, -, rfl⟩ := Option.map_eq_some_iff.mp h
    rfl
  · contradiction

theorem created_compileKey {ref : PyStr} {key : Option PyStr} {extra : Extra}
    {new : NewJob} (h : created setup s ref key extra = some new) :
    new.compileKey = key := by
  unfold created at h
  split at h
  · obtain rfl := Option.some.inj h
    rfl
  · contradiction

/-- A submission opens an attempt for the key it names. -/
theorem submitted_compileKey {ref : PyStr} {key : Option PyStr} {extra : Extra}
    {new : NewJob} (h : submitted setup s ref key extra = some new) :
    new.compileKey = key := by
  unfold submitted at h
  split at h
  · exact created_compileKey h
  · split at h
    · contradiction
    · split at h
      · exact resumed_compileKey h
      · split at h
        · contradiction
        · exact created_compileKey h

/-- The attempt that one row of {lit}`retry_due` opens. -/
def retried (setup : Setup) (s : Manager) (uuid ref : PyStr) (key : Option PyStr) :
    Option NewJob :=
  (s.registry.getJob uuid).bind fun full =>
    resumed setup s ref key full setup.fakeCompile.deviceRequired {}

/-- The attempt that {lit}`requeue` opens. -/
def requeued (setup : Setup) (s : Manager) (ref : PyStr) (key : Option PyStr) :
    Option NewJob :=
  match s.registry.findJob ref key with
  | none => none
  | some existing =>
      if !existing.stage.terminalError || s.registry.state.inhibition.isSome ||
          hasLive s key then none
      else if constructible setup s (attemptArgs key false {} existing.sourceSha256) then
        (requeuePrev existing).map fun prev =>
          nextAttempt ref key prev existing.sourceSha256
      else none

/-- A retry opens an attempt for the key it names. -/
theorem retried_compileKey {uuid ref : PyStr} {key : Option PyStr} {new : NewJob}
    (h : retried setup s uuid ref key = some new) : new.compileKey = key := by
  obtain ⟨full, -, hfull⟩ := Option.bind_eq_some_iff.mp h
  exact resumed_compileKey hfull

/-- A requeue opens an attempt for the key it names. -/
theorem requeued_compileKey {ref : PyStr} {key : Option PyStr} {new : NewJob}
    (h : requeued setup s ref key = some new) : new.compileKey = key := by
  unfold requeued at h
  split at h
  · contradiction
  · split at h
    · contradiction
    · split at h
      · obtain ⟨prev, -, rfl⟩ := Option.map_eq_some_iff.mp h
        rfl
      · contradiction

/-! ## What stops an attempt -/

/-- Whether a failed row may be attempted again automatically now. -/
def rowEligible (s : Manager) (row : JobRow) : Bool :=
  !s.registry.state.inhibition.isSome &&
    (autoEligible s.memlockAdequate row.failure s.now).1

/-- Whether the backend factory refuses a resumption of a row. -/
def refusesAgain (setup : Setup) (s : Manager) (key : Option PyStr) (held : Bool)
    (extra : Extra) (row : JobRow) : Bool :=
  !constructible setup s
    (attemptArgs key held extra (orText extra.sourceSha256 row.sourceSha256))

/-- What {lit}`submit` finds that stops it: a live job of the key, or a row of its own ref
that is live, or failed and not eligible, or prepared with its artifact; or the backend
factory refuses. -/
def submitStops (setup : Setup) (s : Manager) (ref : PyStr) (key : Option PyStr)
    (extra : Extra) : Bool :=
  hasLive s key ||
    match s.registry.findJob ref key with
    | none => !constructible setup s (createArgs setup key extra)
    | some row =>
        if row.stage.terminalError then
          !rowEligible s row ||
            refusesAgain setup s key setup.fakeCompile.deviceRequired extra row
        else
          !row.stage.terminal ||
            !(key.getD []).isEmpty && (s.registry.getArtifact (key.getD [])).isSome ||
              !constructible setup s (createArgs setup key extra)

/-- What stops one row of {lit}`retry_due`. -/
def retryStops (setup : Setup) (s : Manager) (uuid : PyStr) (key : Option PyStr) : Bool :=
  hasLive s key ||
    (s.registry.getJob uuid).all fun row =>
      !rowEligible s row || refusesAgain setup s key setup.fakeCompile.deviceRequired {} row

/-- What stops {lit}`requeue`. -/
def requeueStops (setup : Setup) (s : Manager) (ref : PyStr) (key : Option PyStr) : Bool :=
  hasLive s key || s.registry.state.inhibition.isSome ||
    (s.registry.findJob ref key).all fun row =>
      !row.stage.terminalError || (requeuePrev row).isNone ||
        !constructible setup s (attemptArgs key false {} row.sourceSha256)

/-- A key has an oldest live job exactly when it has a newest one. -/
theorem oldestLive_isNone (s : Manager) (key : Option PyStr) :
    (oldestLive s key).isNone = !hasLive s key := by
  unfold oldestLive hasLive Registry.liveJobForKey
  by_cases hkey : key.getD [] = []
  · simp [hkey]
  · obtain ⟨k, rfl⟩ : ∃ k, key = some k := by
      cases key with
      | none => exact absurd rfl hkey
      | some k => exact ⟨k, rfl⟩
    have hne : k ≠ [] := hkey
    rw [Bool.eq_iff_iff, Option.isNone_iff_eq_none]
    simp [newestBy_eq_none, hne]

theorem created_eq_none_iff {ref : PyStr} {key : Option PyStr} {extra : Extra} :
    created setup s ref key extra = none ↔
      (hasLive s key || !constructible setup s (createArgs setup key extra)) = true := by
  unfold created
  rw [oldestLive_isNone]
  cases hasLive s key <;> cases constructible setup s (createArgs setup key extra) <;> simp

theorem resumed_eq_none_iff {ref : PyStr} {key : Option PyStr} {failed : JobRow}
    {held : Bool} {extra : Extra} :
    resumed setup s ref key failed held extra = none ↔
      (hasLive s key || (!rowEligible s failed ||
        refusesAgain setup s key held extra failed)) = true := by
  have hresumable : resumable s key failed = none ↔
      (hasLive s key || !rowEligible s failed) = true := by
    unfold resumable rowEligible
    cases hasLive s key <;> cases s.registry.state.inhibition.isSome <;>
      cases failed.failure <;> simp [autoEligible, Option.filter_eq_none_iff]
  unfold resumed refusesAgain
  dsimp only
  split
  · rename_i hok
    rw [Option.map_eq_none_iff, hresumable]
    simp [hok]
  · rename_i hno
    simp [hno]

/-- **A submission opens nothing exactly when something stops it.** -/
theorem submitted_eq_none_iff {ref : PyStr} {key : Option PyStr} {extra : Extra} :
    submitted setup s ref key extra = none ↔
      submitStops setup s ref key extra = true := by
  unfold submitted submitStops
  cases hfind : s.registry.findJob ref key with
  | none => exact created_eq_none_iff
  | some row =>
      dsimp only
      by_cases herror : row.stage.terminalError = true
      · have hterminal : row.stage.terminal = true := by simp [Stage.terminal, herror]
        simp only [hterminal, herror, Bool.not_true, Bool.false_eq_true, if_false, if_true]
        exact resumed_eq_none_iff
      · simp only [herror, Bool.false_eq_true, if_false]
        cases row.stage.terminal with
        | false => simp
        | true =>
            cases !(key.getD []).isEmpty && (s.registry.getArtifact (key.getD [])).isSome with
            | true => simp
            | false => simpa using created_eq_none_iff

/-- **A retry opens nothing exactly when something stops it.** -/
theorem retried_eq_none_iff {uuid ref : PyStr} {key : Option PyStr} :
    retried setup s uuid ref key = none ↔ retryStops setup s uuid key = true := by
  unfold retried retryStops
  cases s.registry.getJob uuid with
  | none => simp
  | some row => exact resumed_eq_none_iff

/-- **A requeue opens nothing exactly when something stops it.** -/
theorem requeued_eq_none_iff {ref : PyStr} {key : Option PyStr} :
    requeued setup s ref key = none ↔ requeueStops setup s ref key = true := by
  unfold requeued requeueStops
  cases s.registry.findJob ref key with
  | none => simp
  | some row =>
      simp only [Option.all_some]
      cases row.stage.terminalError <;> cases s.registry.state.inhibition.isSome <;>
        cases hasLive s key <;>
        cases constructible setup s (attemptArgs key false {} row.sourceSha256) <;>
        cases requeuePrev row <;> simp

/-- The row that {lit}`find_job` returns is one of the rows. -/
theorem findJob_mem {r : Registry} {ref : PyStr} {key : Option PyStr} {j : JobRow}
    (h : r.findJob ref key = some j) : j ∈ r.jobs :=
  (List.mem_filter.mp (newestBy_mem h)).1

/-- A transaction that ends well. -/
theorem grown_transaction {β : Type} {p : Prog β} {t : Manager} {b : β}
    {new : Option NewJob} (hrun : p.run (Stmt.exec setup) s = (t, .ok b))
    (h : Grown setup s t new) : Grown setup s (transaction setup p s).1 new := by
  unfold transaction
  rw [hrun]
  exact h

/-- Joining a live job or creating a first attempt. -/
theorem joinOrCreate_grown (h : Fresh setup s) (ref : PyStr) (key : Option PyStr)
    (extra : Extra) :
    ∃ t r, (joinOrCreate setup ref key extra).run (Stmt.exec setup) s = (t, r) ∧
      match r with
      | .ok _ => Grown setup s t (created setup s ref key extra)
      | .error _ => created setup s ref key extra = none := by
  unfold joinOrCreate created
  rw [Program.run_bind, run_read]
  dsimp only
  cases hlive : oldestLive s key with
  | some live =>
      refine ⟨_, .ok live, rfl, ?_⟩
      refine Grown.of_cores ?_
      simp only [Stmt.exec, Registry.addAlias]
      split <;> rfl
  | none =>
      dsimp only
      let new : NewJob :=
        { ref, compileKey := key, attempt := 1, sourceSha256 := extra.sourceSha256 }
      let s₁ := (Stmt.createJob new).exec setup s
      have hcores : s₁.registry.cores = s.registry.cores ++ [(rowOf setup s new).core] := by
        simp [s₁, Stmt.exec, Registry.createJob, Registry.cores, rowOf]
      obtain ⟨r, hrun, hr⟩ := @run_makeBackendJob setup
        (createArgs setup key extra) s₁
      have hprogram : (create setup ref key extra).run (Stmt.exec setup) s =
          ((makeBackendJob setup (createArgs setup key extra) >>= fun backend => (do
              exec (.putBackend (setup.uuid4 s.minted) backend)
              someJob (setup.uuid4 s.minted))).run (Stmt.exec setup) s₁) :=
        rfl
      rw [hprogram]
      have hconstructible : constructible setup s (createArgs setup key extra) =
          constructible setup s₁ (createArgs setup key extra) :=
        rfl
      cases r with
      | error e =>
          refine ⟨s₁, .error e, Program.run_bind_of_error _ hrun _, ?_⟩
          have hno : constructible setup s₁ (createArgs setup key extra) = false := by
            simpa using hr
          simp [hconstructible, hno]
      | ok backend =>
          have hok : constructible setup s₁ (createArgs setup key extra) = true :=
            hr.mpr ⟨backend, rfl⟩
          let s₂ := (Stmt.putBackend (setup.uuid4 s.minted) backend).exec setup s₁
          have hfresh : Fresh setup s₂ := ((h.stmt (.createJob new)).1.stmt _).1
          have hjob := run_someJob hfresh (j := rowOf setup s new)
            (List.mem_append_right _ List.mem_cons_self)
          refine ⟨s₂, .ok (rowOf setup s new), ?_, ?_⟩
          · rw [Program.run_bind_of_ok _ hrun, Program.run_bind, run_exec]
            exact hjob
          · simp only [hconstructible, hok, Option.isNone_none, Bool.and_self, if_true]
            exact hcores

/-- A transaction that runs as {lit}`joinOrCreate` does. -/
theorem transaction_joinOrCreate (h : Fresh setup s) {ref : PyStr} {key : Option PyStr}
    {extra : Extra} {p : Prog JobRow}
    (hp : p.run (Stmt.exec setup) s =
      (joinOrCreate setup ref key extra).run (Stmt.exec setup) s) :
    Grown setup s (transaction setup p s).1 (created setup s ref key extra) := by
  obtain ⟨t, r, hrun, hr⟩ := joinOrCreate_grown h ref key extra
  unfold transaction
  rw [hp, hrun]
  cases r with
  | ok job => exact hr
  | error e =>
      rw [show created setup s ref key extra = none from hr]
      exact Grown.of_cores rfl

/-- **What a submission opens.** -/
theorem exec_submit_grown (h : Fresh setup s) (ref : PyStr) (key : Option PyStr)
    (extra : Extra) :
    Grown setup s ((Act.submit ref key extra).exec setup s)
      (submitted setup s ref key extra) := by
  have hread : (submit setup ref key extra).run (Stmt.exec setup) s =
      (match s.registry.findJob ref key with
        | none => joinOrCreate setup ref key extra
        | some existing =>
            if !existing.stage.terminal then do
              exec (.addAlias existing.uuid ref)
              return existing
            else if existing.stage.terminalError then
              submitTerminal setup ref key existing extra
            else
              (read fun s => !(key.getD []).isEmpty &&
                (s.registry.getArtifact (key.getD [])).isSome) >>= fun cached =>
                  if cached then return existing
                  else joinOrCreate setup ref key extra).run (Stmt.exec setup) s :=
    rfl
  unfold submitted
  cases hfind : s.registry.findJob ref key with
  | none =>
      refine transaction_joinOrCreate h ?_
      rw [hread, hfind]
  | some existing =>
      have hmem : existing ∈ s.registry.jobs := findJob_mem hfind
      rw [hfind] at hread
      dsimp only at hread ⊢
      by_cases hlive : (!existing.stage.terminal) = true
      · rw [if_pos hlive] at hread ⊢
        refine grown_transaction hread (Grown.of_cores ?_)
        simp only [Stmt.exec, Registry.addAlias]
        split <;> rfl
      · rw [if_neg hlive] at hread ⊢
        by_cases herror : existing.stage.terminalError = true
        · rw [if_pos herror] at hread ⊢
          obtain ⟨t, r, hrun, hgrown⟩ := run_maybeResume h ref key existing
            setup.fakeCompile.deviceRequired extra
          have hterminal : (submitTerminal setup ref key existing extra).run
              (Stmt.exec setup) s = (t, .ok (r.getD existing)) := by
            unfold submitTerminal
            rw [Program.run_bind_of_ok _ (run_someJob h hmem),
              Program.run_bind_of_ok _ hrun]
            cases r <;> rfl
          exact grown_transaction (hread.trans hterminal) hgrown
        · rw [if_neg herror, Program.run_bind, run_read] at hread
          rw [if_neg herror]
          dsimp only at hread
          by_cases hartifact : (!(key.getD []).isEmpty &&
              (s.registry.getArtifact (key.getD [])).isSome) = true
          · rw [if_pos hartifact] at hread ⊢
            exact grown_transaction hread (Grown.of_cores rfl)
          · rw [if_neg hartifact] at hread ⊢
            exact transaction_joinOrCreate h hread

/-- **What one row of a retry opens.** -/
theorem exec_resume_grown (h : Fresh setup s) (uuid ref : PyStr) (key : Option PyStr) :
    Grown setup s ((Act.resume uuid ref key).exec setup s)
      (retried setup s uuid ref key) := by
  have hread : (resumeRow setup uuid ref key).run (Stmt.exec setup) s =
      (match s.registry.getJob uuid with
        | none => return none
        | some full =>
            maybeResume setup ref key full setup.fakeCompile.deviceRequired {}).run
          (Stmt.exec setup) s :=
    rfl
  unfold retried
  cases hjob : s.registry.getJob uuid with
  | none =>
      rw [hjob] at hread
      exact grown_transaction hread (Grown.of_cores rfl)
  | some full =>
      rw [hjob] at hread
      obtain ⟨t, r, hrun, hgrown⟩ := run_maybeResume h ref key full
        setup.fakeCompile.deviceRequired {}
      exact grown_transaction (hread.trans hrun) hgrown

/-- {lit}`requeue` on the terminal row it found. -/
theorem run_requeue_found (h : Fresh setup s) {ref : PyStr} {key : Option PyStr}
    {existing : JobRow} (hfind : s.registry.findJob ref key = some existing)
    (herror : existing.stage.terminalError = true)
    (hinh : s.registry.state.inhibition.isSome = false) :
    ∃ t r, (requeue setup ref key).run (Stmt.exec setup) s = (t, .ok r) ∧
      Grown setup s t
        (if hasLive s key then none
          else if constructible setup s (attemptArgs key false {} existing.sourceSha256) then
            (requeuePrev existing).map fun prev =>
              nextAttempt ref key prev existing.sourceSha256
          else none) := by
  unfold requeue
  rw [Program.run_bind, run_read]
  simp only [hfind, herror, Bool.not_true, Bool.false_eq_true, if_false]
  rw [Program.run_bind, run_read]
  simp only [hinh, Bool.false_eq_true, if_false]
  rw [Program.run_bind_of_ok _ (run_someJob h (findJob_mem hfind))]
  cases hprev : requeuePrev existing with
  | none =>
      refine ⟨s, none, rfl, ?_⟩
      simp [Grown]
  | some prev =>
      dsimp only
      rw [Program.run_bind, run_read]
      dsimp only
      by_cases hlive : hasLive s key = true
      · rw [if_pos hlive, if_pos hlive]
        exact ⟨s, none, rfl, Grown.of_cores rfl⟩
      · rw [if_neg hlive, if_neg hlive]
        rcases run_newAttempt h ref key prev false {} existing.uuid existing.sourceSha256
          with ⟨hok, t, row, hrun, hgrown⟩ | ⟨hno, t, hrun, hgrown⟩
        · refine ⟨_, some row, Program.run_bind_of_ok _ hrun _, ?_⟩
          rw [if_pos hok]
          exact hgrown.setFailure _ _
        · refine ⟨t, none, Program.run_bind_of_ok _ hrun _, ?_⟩
          rw [hno]
          exact hgrown

/-- **What an operator's requeue opens.** -/
theorem exec_requeue_grown (h : Fresh setup s) (ref : PyStr) (key : Option PyStr) :
    Grown setup s ((Act.requeue ref key).exec setup s)
      (requeued setup s ref key) := by
  change Grown setup s (transaction setup (requeue setup ref key) s).1 _
  unfold requeued
  cases hfind : s.registry.findJob ref key with
  | none =>
      refine grown_transaction (t := s) (b := none) ?_ (Grown.of_cores rfl)
      unfold requeue
      rw [Program.run_bind, run_read]
      simp only [hfind]
      rfl
  | some existing =>
      dsimp only
      by_cases herror : existing.stage.terminalError = true
      · by_cases hinh : s.registry.state.inhibition.isSome = true
        · refine grown_transaction (t := s) (b := none) ?_ (by simp [hinh, Grown])
          unfold requeue
          rw [Program.run_bind, run_read]
          simp only [hfind, herror, Bool.not_true, Bool.false_eq_true, if_false]
          rw [Program.run_bind, run_read]
          simp only [hinh, if_true]
          rfl
        · have hno : s.registry.state.inhibition.isSome = false := by simpa using hinh
          obtain ⟨t, r, hrun, hgrown⟩ := run_requeue_found h hfind herror hno
          simp only [herror, hno, Bool.not_true, Bool.false_or]
          exact grown_transaction hrun hgrown
      · refine grown_transaction (t := s) (b := none) ?_ (by simp [herror, Grown])
        unfold requeue
        rw [Program.run_bind, run_read]
        simp only [hfind, herror, Bool.not_false, if_true]
        rfl

end JobManager

/-! ## The statements of a transaction -/

/-- The statements of the job manager's transactions: they touch rows, aliases, ref states
and backend objects. -/
def Stmt.ofJobs : Stmt → Bool
  | .query | .createJob _ | .setFailure _ _ | .deleteJob _ | .addAlias _ _
  | .putBackend _ _ | .setRefState _ _ => true
  | _ => false

/-- They change no artifacts, no sources and nothing on disk. -/
theorem Stmt.ofJobs_kept {setup : Setup} {a : Stmt} (h : a.ofJobs = true) (s : Manager) :
    (a.exec setup s).disk = s.disk ∧
      (a.exec setup s).registry.artifacts = s.registry.artifacts ∧
      (a.exec setup s).registry.sources = s.registry.sources ∧
      (a.exec setup s).excused = s.excused := by
  cases a with
  | addAlias uuid ref =>
      refine ⟨rfl, ?_, ?_, rfl⟩
      · simp only [Stmt.exec, Registry.addAlias]
        split <;> rfl
      · simp only [Stmt.exec, Registry.addAlias]
        split <;> rfl
  | query => exact ⟨rfl, rfl, rfl, rfl⟩
  | createJob row => exact ⟨rfl, rfl, rfl, rfl⟩
  | setFailure uuid record => exact ⟨rfl, rfl, rfl, rfl⟩
  | deleteJob uuid => exact ⟨rfl, rfl, rfl, rfl⟩
  | putBackend uuid backend => exact ⟨rfl, rfl, rfl, rfl⟩
  | setRefState ref state => exact ⟨rfl, rfl, rfl, rfl⟩
  | _ => contradiction

/-- A program of such statements. -/
abbrev OnlyJobs {β : Type} (p : Prog β) : Prop :=
  p.Only fun a => a.ofJobs = true

theorem onlyJobs_read {β : Type} (f : Manager → β) : OnlyJobs (read f) :=
  ⟨rfl, fun _ => trivial⟩

theorem onlyJobs_exec {a : Stmt} (h : a.ofJobs = true) : OnlyJobs (exec a) :=
  ⟨h, fun _ => trivial⟩

namespace JobManager

variable (setup : Setup)

theorem onlyJobs_someJob (uuid : PyStr) : OnlyJobs (someJob uuid) := by
  refine Program.Only.bind (onlyJobs_read _) fun job => ?_
  cases job <;> trivial

theorem onlyJobs_newRow (row : NewJob) : OnlyJobs (newRow setup row) :=
  ⟨rfl, fun _ => trivial⟩

theorem onlyJobs_makeBackendJob (kw : BackendArgs) : OnlyJobs (makeBackendJob setup kw) := by
  unfold makeBackendJob compileSourcePath
  split
  · split
    · trivial
    · refine Program.Only.bind (Program.Only.bind (onlyJobs_read _) fun src => ?_)
        fun _ => trivial
      cases src with
      | none => trivial
      | some src =>
          refine Program.Only.bind (onlyJobs_read _) fun found => ?_
          split <;> trivial
  · trivial

theorem onlyJobs_spawnBackend (uuid : PyStr) (kw : BackendArgs) (prevUuid : PyStr) :
    OnlyJobs (spawnBackend setup uuid kw prevUuid) := by
  refine Program.Only.bind (onlyJobs_makeBackendJob setup kw).attempt fun r => ?_
  cases r with
  | ok backend => exact Program.Only.bind (onlyJobs_exec rfl) fun _ => trivial
  | error e =>
      refine Program.Only.bind (onlyJobs_exec rfl) fun _ => ?_
      refine Program.Only.bind (onlyJobs_read _) fun prior => ?_
      cases prior with
      | none => trivial
      | some prior => exact Program.Only.bind (onlyJobs_exec rfl) fun _ => trivial

theorem onlyJobs_carryAliases (uuid ref prevUuid : PyStr) :
    OnlyJobs (carryAliases uuid ref prevUuid) :=
  Program.Only.bind (onlyJobs_read _) fun _ => Program.Only.forEach fun _ _ => onlyJobs_exec rfl

theorem onlyJobs_newAttempt (ref : PyStr) (key : Option PyStr) (prev : Failure)
    (held : Bool) (extra : Extra) (prevUuid : PyStr) (sourceSha256 : Option PyStr) :
    OnlyJobs (newAttempt setup ref key prev held extra prevUuid sourceSha256) := by
  refine Program.Only.bind (onlyJobs_newRow setup _) fun uuid => ?_
  refine Program.Only.bind (onlyJobs_exec rfl) fun _ => ?_
  refine Program.Only.bind (onlyJobs_carryAliases _ _ _) fun _ => ?_
  refine Program.Only.bind (onlyJobs_spawnBackend _ _ _ _) fun ok => ?_
  split
  · refine Program.Only.bind (onlyJobs_exec rfl) fun _ => ?_
    exact Program.Only.bind (onlyJobs_someJob _) fun _ => trivial
  · trivial

theorem onlyJobs_maybeResume (ref : PyStr) (key : Option PyStr) (failed : JobRow)
    (held : Bool) (extra : Extra) :
    OnlyJobs (maybeResume setup ref key failed held extra) := by
  refine Program.Only.bind (onlyJobs_read _) fun live => ?_
  split
  · trivial
  · refine Program.Only.bind (onlyJobs_read _) fun inhibited => ?_
    split
    · trivial
    · split
      · trivial
      · rename_i record hrecord
        refine Program.Only.bind (onlyJobs_read _) fun eligible => ?_
        split
        · refine Program.Only.bind (onlyJobs_newAttempt ..) fun new => ?_
          cases new with
          | none => trivial
          | some new => exact Program.Only.bind (onlyJobs_exec rfl) fun _ => trivial
        · trivial

theorem onlyJobs_submit (ref : PyStr) (key : Option PyStr) (extra : Extra) :
    OnlyJobs (submit setup ref key extra) := by
  have hcreate : OnlyJobs (joinOrCreate setup ref key extra) := by
    refine Program.Only.bind (onlyJobs_read _) fun live => ?_
    cases live with
    | some live => exact Program.Only.bind (onlyJobs_exec rfl) fun _ => trivial
    | none =>
        refine Program.Only.bind (onlyJobs_newRow setup _) fun uuid => ?_
        refine Program.Only.bind (onlyJobs_makeBackendJob ..) fun backend => ?_
        exact Program.Only.bind (onlyJobs_exec rfl) fun _ => onlyJobs_someJob _
  refine Program.Only.bind (onlyJobs_read _) fun existing => ?_
  cases existing with
  | none => exact hcreate
  | some existing =>
      dsimp only
      split
      · exact Program.Only.bind (onlyJobs_exec rfl) fun _ => trivial
      · split
        · refine Program.Only.bind (onlyJobs_someJob _) fun full => ?_
          refine Program.Only.bind (onlyJobs_maybeResume ..) fun new => ?_
          cases new <;> trivial
        · refine Program.Only.bind (onlyJobs_read _) fun cached => ?_
          split
          · trivial
          · exact hcreate

theorem onlyJobs_resumeRow (uuid ref : PyStr) (key : Option PyStr) :
    OnlyJobs (resumeRow setup uuid ref key) := by
  refine Program.Only.bind (onlyJobs_read _) fun full => ?_
  cases full with
  | none => trivial
  | some full => exact onlyJobs_maybeResume ..

theorem onlyJobs_requeue (ref : PyStr) (key : Option PyStr) :
    OnlyJobs (requeue setup ref key) := by
  refine Program.Only.bind (onlyJobs_read _) fun existing => ?_
  cases existing with
  | none => trivial
  | some existing =>
      dsimp only
      split
      · trivial
      · refine Program.Only.bind (onlyJobs_read _) fun inhibited => ?_
        split
        · trivial
        · refine Program.Only.bind (onlyJobs_someJob _) fun full => ?_
          cases requeuePrev full with
          | none => trivial
          | some prev =>
              refine Program.Only.bind (onlyJobs_read _) fun live => ?_
              split
              · trivial
              · refine Program.Only.bind (onlyJobs_newAttempt ..) fun new => ?_
                cases new with
                | none => trivial
                | some new => exact Program.Only.bind (onlyJobs_exec rfl) fun _ => trivial

end JobManager

/-- What the statements of the job manager keep, and what a rollback keeps, a transaction
keeps. -/
theorem Act.transaction_invariant {setup : Setup} {I : Manager → Prop}
    (hact : ∀ a s, Stmt.ofJobs a = true → I s → I (a.exec setup s))
    (hroll : ∀ s s', I s → I s' → I { s' with registry := s.registry }) {a : Act}
    (ha : ∀ a', a ≠ .stmt a') {s : Manager} (hs : I s) : I (a.exec setup s) := by
  have hprogram : ∀ {β : Type} (p : Prog β), OnlyJobs p → I (transaction setup p s).1 := by
    intro β p hp
    have hrun : I (p.run (Stmt.exec setup) s).1 := hp.run hact hs
    unfold transaction
    split
    · rename_i s' b heq
      rwa [heq] at hrun
    · rename_i s' e heq
      rw [heq] at hrun
      exact hroll s s' hs hrun
  cases a with
  | stmt a => exact absurd rfl (ha a)
  | submit ref key extra => exact hprogram _ (JobManager.onlyJobs_submit setup ref key extra)
  | resume uuid ref key =>
      exact hprogram _ (JobManager.onlyJobs_resumeRow setup uuid ref key)
  | requeue ref key => exact hprogram _ (JobManager.onlyJobs_requeue setup ref key)

end FrigateXdna
