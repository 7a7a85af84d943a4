import FrigateXdna.Process

/-!
# Cache hits and new attempts

A preparation looks for a committed artifact before it submits.  The transactions that
open an attempt do not look again: a submission may come after another job published, and
a retry, a resumption after a restart and a requeue never look at all.

Main results:

- Theorem {lit}`spares_iff`: which actions open no attempt for a key.
- Theorem {lit}`hits_never_compile_iff`: a run opens no attempt for a key with a usable
  artifact exactly when at every such key something else stops it.
-/

namespace FrigateXdna
namespace Process

open Python Library

variable {setup : Setup}

/-! ## The rule -/

/-- An attempt is not opened for a key whose artifact, made by the current backend, is
committed at that moment. -/
def Uncached (setup : Setup) (e : Event) : Prop :=
  ∀ opener key before, e = .opened opener (some key) before →
    before.usable setup key = false

/-- Whether an action opens no attempt for a key: it inserts no attempt row for it, and
what it runs for it is stopped. -/
def Spares (setup : Setup) (s : Manager) (key : PyStr) : Act → Prop
  | .stmt (.createJob row) => row.hit = true ∨ row.compileKey ≠ some key
  | .stmt _ => True
  | .submit ref key' extra =>
      key' = some key → JobManager.submitStops setup s ref key' extra = true
  | .resume uuid _ key' => key' = some key → JobManager.retryStops setup s uuid key' = true
  | .requeue ref key' => key' = some key → JobManager.requeueStops setup s ref key' = true

/-- The action of a step is stopped for every key with a usable artifact. -/
def Rechecked (setup : Setup) (P : Process) (l : Label) : Prop :=
  ∀ a key, action P l = some a → P.shared.usable setup key = true →
    Spares setup P.shared key a

/-- What is stopped opens nothing. -/
theorem spares_iff {s : Manager} {key : PyStr} {a : Act} :
    Spares setup s key a ↔ ∀ new, opens setup a s = some new → new.compileKey ≠ some key := by
  have hiff : ∀ {o : Option NewJob} {key' : Option PyStr} {stops : Bool},
      (o = none ↔ stops = true) → (∀ new, o = some new → new.compileKey = key') →
      ((key' = some key → stops = true) ↔ ∀ new, o = some new → new.compileKey ≠ some key) := by
    intro o key' stops hnone hkey
    rw [← hnone]
    cases o with
    | none => simp
    | some new => simp [hkey new rfl]
  cases a with
  | stmt a =>
      cases a with
      | createJob row =>
          simp only [Spares, opens]
          by_cases hhit : row.hit = true <;> simp [hhit]
      | _ => simp [Spares, opens]
  | submit ref key' extra =>
      exact hiff JobManager.submitted_eq_none_iff fun _ => JobManager.submitted_compileKey
  | resume uuid ref key' =>
      exact hiff JobManager.retried_eq_none_iff fun _ => JobManager.retried_compileKey
  | requeue ref key' =>
      exact hiff JobManager.requeued_eq_none_iff fun _ => JobManager.requeued_compileKey

/-- One step keeps the rule exactly when what it opens is not in the cache. -/
theorem step_uncached_iff {P P' : Process} {l : Label} {es : List Event}
    (hfresh : Fresh setup P.shared) (h : step setup P l = some (P', es)) :
    (∀ e ∈ es, Uncached setup e) ↔ Rechecked setup P l := by
  constructor
  · intro hall a key ha husable
    refine spares_iff.mpr fun new hnew hkey => ?_
    cases l with
    | turn i =>
        have htask : ∃ task, P.taskAt i = some task := by
          rcases step_cases h with ⟨hnone, -⟩ | ⟨j, task, a', hl, htask, -⟩ |
            ⟨e, hl, -⟩ | ⟨token, hl, -⟩
          · rw [hnone] at ha
            contradiction
          · obtain rfl := Label.turn.inj hl
            exact ⟨task, htask⟩
          · contradiction
          · contradiction
        obtain ⟨task, htask⟩ := htask
        have hmem := (opened_mem_iff hfresh h).mpr
          ⟨rfl, i, task, a, new, rfl, htask, ha, hnew, rfl, rfl⟩
        rw [hkey] at hmem
        rw [hall _ hmem _ key _ rfl] at husable
        contradiction
    | _ => contradiction
  · intro hrecheck e he opener key before heq
    subst heq
    obtain ⟨rfl, i, task, a, new, -, -, ha, hnew, -, hkey⟩ := (opened_mem_iff hfresh h).mp he
    by_contra husable
    have hspares := hrecheck a key ha (by simpa using husable)
    exact spares_iff.mp hspares new hnew hkey.symm

/-- **A cache hit never compiles.**  A run opens no attempt for a key with a usable
artifact exactly when at every such key every submission finds a row to return or a live
job to join, no retry, resumption or requeue finds its row eligible, and the pump inserts
no row. -/
theorem hits_never_compile_iff {bootToken : PyStr} {labels : List Label} {P : Process}
    {es : List Event}
    (hrun : (machine setup).exec labels (first setup bootToken) = some (P, es)) :
    (∀ e ∈ es, Uncached setup e) ↔
      (machine setup).Along (Rechecked setup) labels (first setup bootToken) :=
  Machine.exec_events_iff_along (machine setup) (fun _ _ _ _ => step_fresh)
    (fun _ _ _ _ => step_uncached_iff) (first_fresh bootToken) hrun

/-! ## Runs -/

/-- The prepared model is uploaded again, and then a local file with the same bytes is
prepared. -/
def hitTwice : List Label :=
  samplePrepared ++ [.start (.upload sampleModel)] ++ turns 0 12 ++
    [.start (.prepare (py "local://cam") (py "local") false (.bytes sampleModel .localFile))] ++
    turns 0 12

/-- A run with two cache hits, each with a row of its own. -/
theorem hits_hitTwice :
    ∃ P es, (machine sampleSetup).exec hitTwice (first sampleSetup (py "boot")) =
        some (P, es) ∧
      P.shared.preparedUuids sampleKey = [py "job-" ++ [0], py "job-" ++ [1], py "job-" ++ [2]] ∧
      ((∀ e ∈ es, Uncached sampleSetup e) ↔
        (machine sampleSetup).Along (Rechecked sampleSetup) hitTwice
          (first sampleSetup (py "boot"))) := by
  have hends : (machine sampleSetup).endsIn hitTwice (first sampleSetup (py "boot"))
      (fun P => P.shared.preparedUuids sampleKey ==
        [py "job-" ++ [0], py "job-" ++ [1], py "job-" ++ [2]]) = true := by
    decide +kernel
  obtain ⟨P, es, hrun, hhits⟩ := (machine sampleSetup).exists_exec_of_endsIn hends
  exact ⟨P, es, hrun, by simpa using hhits, hits_never_compile_iff hrun⟩

/-- The process dies between the row of a cache hit and its stage, and the next one
resumes the row. -/
def interruptedHit : List Label :=
  samplePrepared ++ [.start (.upload sampleModel)] ++ turns 0 9 ++ [.crash (py "boot")] ++
    turns 0 12 ++ [.start (.pump 1)] ++ turns 0 2

/-- Whether an event is an attempt for a key with a usable artifact. -/
def isCachedAttempt (setup : Setup) : Event → Bool
  | .opened _ (some key) before => before.usable setup key
  | _ => false

theorem not_uncached_of_isCachedAttempt {e : Event} (h : isCachedAttempt setup e = true) :
    ¬ Uncached setup e := by
  intro hall
  unfold isCachedAttempt at h
  split at h
  · rename_i opener key before
    rw [hall opener key before rfl] at h
    contradiction
  · contradiction

/-- An interrupted cache hit is compiled again. -/
theorem interruptedHit_compiles :
    ∃ P es, (machine sampleSetup).exec interruptedHit (first sampleSetup (py "boot")) =
      some (P, es) ∧ ¬ ∀ e ∈ es, Uncached sampleSetup e := by
  have hemits : (machine sampleSetup).emits interruptedHit
      (first sampleSetup (py "boot")) (isCachedAttempt sampleSetup) = true := by
    decide +kernel
  obtain ⟨P, es, e, hrun, he, hcached⟩ := (machine sampleSetup).exists_exec_of_emits hemits
  exact ⟨P, es, hrun, fun hall => not_uncached_of_isCachedAttempt hcached (hall e he)⟩

end Process
end FrigateXdna
