import FrigateXdna.Process

/-!
# The failure budget of a compile key

The work of a compile is shared by all refs with the same bytes, but a failure is looked
up under the ref that submits.  A submission from the ref whose job failed finds the
failed row and returns it; a submission from another ref finds nothing and starts over.

Main results:

- Theorem {lit}`submitStops_of_recordSpent`: the failed row of the own ref stops a
  submission.
- Theorem {lit}`budget_kept_iff`: no submission of a run opens an attempt for a key whose
  budget is spent exactly when each finds the failed row, or a live job, under its own
  ref.
-/

namespace FrigateXdna

open Python Library

/-! ## Spent budgets -/

/-- The newest outcome of a key, whichever ref it was compiled for. -/
def lastOutcome (r : Registry) (key : PyStr) : Option JobRow :=
  newestBy JobRow.createdAt
    (r.jobs.filter fun j => j.compileKey == some key && j.stage.terminal)

/-- Whether a failure record waits for an operator: it is permanent, safety-class or
unknown, or its automatic attempts are spent. -/
def recordSpent (failure : Option Failure) : Bool :=
  match failure with
  | none => true
  | some record =>
      [FailureKind.permanent, .safety, .unknown].contains (record.kind.getD .unknown) ||
        decide (maxAttempts ≤ record.attempts.getD 0)

/-- Whether the budget of a key is spent. -/
def spent (r : Registry) (key : PyStr) : Bool :=
  (lastOutcome r key).any fun j => j.stage.terminalError && recordSpent j.failure

/-- A record that waits for an operator is never resumed automatically. -/
theorem recordSpent_not_eligible {adequate : Bool} {failure : Option Failure} {now : Int}
    (h : recordSpent failure = true) : (autoEligible adequate failure now).1 = false := by
  unfold autoEligible
  cases failure with
  | none => rfl
  | some record =>
      dsimp only
      split
      · rfl
      · split
        · rfl
        · split
          · rfl
          · split
            · rfl
            · split
              · rfl
              · rename_i hattempts
                have hkind : [FailureKind.permanent, .safety, .unknown].contains
                    (record.kind.getD .unknown) = true := by
                  simpa [recordSpent, hattempts] using h
                cases hk : record.kind.getD .unknown <;> simp [hk] at hkind ⊢

namespace Process

variable {setup : Setup}

/-! ## The rule -/

/-- A submission that nobody asked for as a refresh does not open an attempt for a key whose
budget is spent.  The refreshes of a start are among these. -/
def WithinBudget (e : Event) : Prop :=
  ∀ key before, e = .opened .submit (some key) before → spent before.registry key = false

/-- A submission for a key whose budget is spent is stopped by what it finds: a live job,
or a row of its own ref that is not to be attempted again. -/
def FindsFailure (setup : Setup) (P : Process) (l : Label) : Prop :=
  ∀ i task ref key extra, l = .turn i → P.taskAt i = some task → task.refreshes = false →
    action P l = some (.submit ref (some key) extra) →
      spent P.shared.registry key = true →
        JobManager.submitStops setup P.shared ref (some key) extra = true

/-- A submission whose own newest row waits for an operator is stopped. -/
theorem submitStops_of_recordSpent {s : Manager} {ref : PyStr} {key : Option PyStr}
    {extra : JobManager.Extra} {row : JobRow} (hrow : s.registry.findJob ref key = some row)
    (herror : row.stage.terminalError = true) (hspent : recordSpent row.failure = true) :
    JobManager.submitStops setup s ref key extra = true := by
  have hno : JobManager.rowEligible s row = false := by
    simp [JobManager.rowEligible, recordSpent_not_eligible hspent]
  simp [JobManager.submitStops, hrow, herror, hno]

/-- One step keeps the rule exactly when its submission finds the failure. -/
theorem step_withinBudget_iff {P P' : Process} {l : Label} {es : List Event}
    (hfresh : Fresh setup P.shared) (h : step setup P l = some (P', es)) :
    (∀ e ∈ es, WithinBudget e) ↔ FindsFailure setup P l := by
  constructor
  · intro hall i task ref key extra hl htask hrefresh ha hspent
    rw [← JobManager.submitted_eq_none_iff]
    cases hnew : JobManager.submitted setup P.shared ref (some key) extra with
    | none => rfl
    | some new =>
        have hkey : new.compileKey = some key := JobManager.submitted_compileKey hnew
        have hmem := (opened_mem_iff hfresh h).mpr
          ⟨rfl, i, task, .submit ref (some key) extra, new, hl, htask, ha, hnew, rfl, rfl⟩
        simp only [openerOf, hrefresh, Bool.false_eq_true, if_false, hkey] at hmem
        rw [hall _ hmem key _ rfl] at hspent
        contradiction
  · intro hfinds e he key before heq
    subst heq
    obtain ⟨rfl, i, task, a, new, hl, htask, ha, hnew, hopener, hkey⟩ :=
      (opened_mem_iff hfresh h).mp he
    cases a with
    | submit ref key' extra =>
        have hrefresh : task.refreshes = false := by
          by_contra hr
          simp [openerOf, hr] at hopener
        obtain rfl : key' = some key :=
          (hkey.trans (JobManager.submitted_compileKey hnew)).symm
        by_contra hspent
        have hnone := JobManager.submitted_eq_none_iff.mpr
          (hfinds i task ref key extra hl htask hrefresh ha (by simpa using hspent))
        rw [show opens setup (.submit ref (some key) extra) P.shared = none from hnone] at hnew
        contradiction
    | _ => simp [openerOf] at hopener

/-- **The failure budget is per compile key.**  In a run no submission opens an attempt
for a key whose budget is spent, unless its caller asks for a refresh, exactly when every
submission for such a key, those of a start's reconciliation included, finds the failed row
under its own ref, or a live job. -/
theorem budget_kept_iff {bootToken : PyStr} {labels : List Label} {P : Process}
    {es : List Event}
    (hrun : (machine setup).exec labels (first setup bootToken) = some (P, es)) :
    (∀ e ∈ es, WithinBudget e) ↔
      (machine setup).Along (FindsFailure setup) labels (first setup bootToken) :=
  Machine.exec_events_iff_along (machine setup) (fun _ _ _ _ => step_fresh)
    (fun _ _ _ _ => step_withinBudget_iff) (first_fresh bootToken) hrun

/-! ## Runs -/

/-- Two uploads of a model whose compile fails. -/
def failedTwice : List Label :=
  failedUpload ++ [.start (.upload sampleModel)] ++ turns 0 11

/-- The run in which the second upload finds the failed row of the first. -/
theorem budget_failedTwice :
    ∃ P es, (machine failingSetup).exec failedTwice (first failingSetup (py "boot")) =
        some (P, es) ∧
      (P.shared.registry.jobs.map JobRow.stage = [.compileFailed] ∧
        spent P.shared.registry sampleKey = true) ∧
      ((∀ e ∈ es, WithinBudget e) ↔
        (machine failingSetup).Along (FindsFailure failingSetup) failedTwice
          (first failingSetup (py "boot"))) := by
  have hends : (machine failingSetup).endsIn failedTwice (first failingSetup (py "boot"))
      (fun P => P.shared.registry.jobs.map JobRow.stage == [.compileFailed] &&
        spent P.shared.registry sampleKey) = true := by
    decide +kernel
  obtain ⟨P, es, hrun, hspent⟩ := (machine failingSetup).exists_exec_of_endsIn hends
  exact ⟨P, es, hrun, by simpa using hspent, budget_kept_iff hrun⟩

/-- An upload whose compile fails, and then a local file with the same bytes. -/
def secondRef : List Label :=
  failedUpload ++
    [.start (.prepare (py "local://cam") (py "local") false
      (.bytes sampleModel .localFile))] ++ turns 0 9

/-- The same host with the local file among its models. -/
def configuredSetup : Setup :=
  { failingSetup with models := [py "local://cam"] }

/-- An upload whose compile fails, and a new start, which prepares the local file. -/
def configuredRef : List Label :=
  failedUpload ++ [.crash (py "boot")] ++ turns 0 6 ++
    [.outside (.space (100 * 1024 ^ 3) (100 * 1024 ^ 3)),
      .start (.reconcile fun model =>
        ⟨model, py "local", .acquired (.bytes sampleModel .localFile)⟩)] ++ turns 0 10

/-- Whether an event is a submission that overspends. -/
def isOverspent : Event → Bool
  | .opened .submit (some key) before => spent before.registry key
  | _ => false

theorem not_withinBudget_of_isOverspent {e : Event} (h : isOverspent e = true) :
    ¬ WithinBudget e := by
  intro hall
  unfold isOverspent at h
  split at h
  · rename_i key before
    rw [hall key before rfl] at h
    contradiction
  · contradiction

/-- A run with such an event breaks the rule. -/
theorem exists_overspent {labels : List Label} {P₀ : Process}
    (h : (machine setup).emits labels P₀ isOverspent = true) :
    ∃ P es, (machine setup).exec labels P₀ = some (P, es) ∧ ¬ ∀ e ∈ es, WithinBudget e := by
  obtain ⟨P, es, e, hrun, he, hover⟩ := (machine setup).exists_exec_of_emits h
  exact ⟨P, es, hrun, fun hall => not_withinBudget_of_isOverspent hover (hall e he)⟩

/-- A second ref with the same bytes runs the failing compile again, when it is prepared and
when a start reconciles it. -/
theorem secondRef_overspends :
    (∃ P es, (machine failingSetup).exec secondRef (first failingSetup (py "boot")) =
      some (P, es) ∧ ¬ ∀ e ∈ es, WithinBudget e) ∧
    ∃ P es, (machine configuredSetup).exec configuredRef (first configuredSetup (py "boot")) =
      some (P, es) ∧ ¬ ∀ e ∈ es, WithinBudget e :=
  ⟨exists_overspent (by decide +kernel), exists_overspent (by decide +kernel)⟩

end Process
end FrigateXdna
