import FrigateXdna.Models.Refs
import FrigateXdna.Runtime.Safety

/-!
# Operator recovery

{lit}`recover_ref` clears a non-safety inhibition recorded for the ref it is given
and then tries to open a new attempt for a terminal job of that ref.  The job
manager's {lit}`requeue` is a parameter: it works on the job tables only.

Main results:

- Theorem {lit}`recoverRef_safety`: a safety-class inhibition survives every
  recovery.
- Theorem {lit}`exists_recoverRef_iff`: a non-safety inhibition can be cleared by
  some argument exactly when the recorded ref parses to itself.
-/

namespace FrigateXdna

open Python FrigateXdna.Runtime

/-- {lit}`_terminal_row_for_ref`. -/
def Registry.terminalRowForRef (r : Registry) (ref : PyStr) : Option JobRow :=
  newestBy JobRow.updatedAt
    (r.jobs.filter fun j =>
      j.stage.terminalError && (j.ref == ref || r.isAlias j.uuid ref))

/-- What {lit}`recover_ref` returns. -/
structure RecoverReply where
  ref : PyStr
  cleared : Bool
  requeued : Bool
  refusedSafety : Bool
  note : PyStr

/-- {lit}`requeue(ref, compile_key)`: whether a new attempt was opened, and the
reason of a refusal. -/
abbrev Requeue := PyStr → Option PyStr → Registry → Except Raised (Bool × PyStr) × Registry

/-- A requeue that leaves the service state alone. -/
def Requeue.KeepsState (requeue : Requeue) : Prop :=
  ∀ ref key r, (requeue ref key r).2.state = r.state

/-- {lit}`reason or "requeue refused"`. -/
def noteOr (reason default : PyStr) : PyStr :=
  if reason.isEmpty then default else reason

/-- {lit}`recover_ref` after its transaction. -/
def recoverJobs (requeue : Requeue) (ref : PyStr) (cleared : Bool) (r : Registry) :
    Except Raised RecoverReply × Registry :=
  match r.terminalRowForRef ref with
  | none =>
      (.ok ⟨ref, cleared, false, false,
        if cleared then py "inhibition cleared; nothing to requeue"
        else py "no retryable terminal job for this ref"⟩, r)
  | some row =>
      match requeue ref row.compileKey r with
      | (.error e, r') => (.error e, r')
      | (.ok (true, _), r') =>
          (.ok ⟨ref, cleared, true, false, py "new bounded attempt opened"⟩, r')
      | (.ok (false, reason), r') =>
          (.ok ⟨ref, cleared, false, false, noteOr reason (py "requeue refused")⟩, r')

/-- {lit}`recover_ref`; {lit}`fault` is what the transaction raises. -/
def recoverRef (env : RefEnv) (modelDir : Option PyStr) (fault : Option PyExc)
    (now : Int) (requeue : Requeue) (arg : PyStr) (r : Registry) :
    Except Raised RecoverReply × Registry :=
  match parseRef env modelDir arg with
  | .error e => (.error (.fxdna e), r)
  | .ok parsed =>
      match fault with
      | some e => (.error (.builtin e), r)
      | none =>
          match r.state.inhibition with
          | none => recoverJobs requeue parsed.ref false r
          | some inh =>
              if inh.ref = some parsed.ref then
                if isSafetyInhibition inh.reason then
                  (.ok ⟨parsed.ref, false, false, true,
                    py "safety inhibition refused: " ++ inh.reason ++
                      py ". Explicit operator review required; inspect" ++
                      py " status/diagnose evidence, resolve the device/fault" ++
                      py " cause first."⟩, r)
                else
                  recoverJobs requeue parsed.ref true
                    (r.clearInhibition ⟨parsed.ref, inh, now⟩)
              else
                (.ok ⟨parsed.ref, false, false, false,
                  py "inhibition active for " ++ inh.ref.getD (py "None") ++ py " (" ++
                    inh.reason ++ py "); resolve it before recovering " ++
                    parsed.ref ++ py "."⟩, r)

/-- The second half keeps the service state. -/
theorem recoverJobs_state {requeue : Requeue} (hk : requeue.KeepsState) (ref : PyStr)
    (cleared : Bool) (r : Registry) :
    (recoverJobs requeue ref cleared r).2.state = r.state := by
  unfold recoverJobs
  split
  · rfl
  · rename_i row _
    have := hk ref row.compileKey r
    split <;> rename_i h <;> simpa [h] using this

/-- A recovery either leaves the inhibition record alone or clears a record that
is not safety-class and was stored under the ref it was given. -/
theorem recoverRef_inhibition {requeue : Requeue} (hk : requeue.KeepsState)
    (env : RefEnv) (modelDir : Option PyStr) (fault : Option PyExc) (now : Int)
    (arg : PyStr) (r : Registry) :
    (recoverRef env modelDir fault now requeue arg r).2.state.inhibition =
        r.state.inhibition ∨
      ((recoverRef env modelDir fault now requeue arg r).2.state.inhibition = none ∧
        ∃ inh p, r.state.inhibition = some inh ∧ isSafetyInhibition inh.reason = false ∧
          parseRef env modelDir arg = .ok p ∧ inh.ref = some p.ref) := by
  unfold recoverRef
  cases hp : parseRef env modelDir arg with
  | error e => exact Or.inl rfl
  | ok parsed =>
      cases fault with
      | some e => exact Or.inl rfl
      | none =>
          dsimp only
          split
          · rename_i hnone
            left
            rw [recoverJobs_state hk]
          · rename_i inh hinh
            split
            · rename_i href
              split
              · exact Or.inl rfl
              · rename_i hsafe
                right
                refine ⟨?_, inh, parsed, hinh, by simpa using hsafe, rfl, href⟩
                rw [recoverJobs_state hk, Registry.clearInhibition_inhibition]
            · exact Or.inl rfl

/-- A safety-class inhibition survives every recovery. -/
theorem recoverRef_safety {requeue : Requeue} (hk : requeue.KeepsState) {env : RefEnv}
    {modelDir : Option PyStr} {fault : Option PyExc} {now : Int} {arg : PyStr}
    {r : Registry} (h : safetyInhibited r = true) :
    safetyInhibited (recoverRef env modelDir fault now requeue arg r).2 = true := by
  rcases recoverRef_inhibition hk env modelDir fault now arg r with
    hsame | ⟨-, inh, p, hinh, hsafe, -⟩
  · simpa [safetyInhibited, hsame] using h
  · simp [safetyInhibited, hinh, hsafe] at h

/-- A recovery whose argument names the recorded ref clears a record that is not
safety-class. -/
theorem recoverRef_clears {requeue : Requeue} (hk : requeue.KeepsState) {env : RefEnv}
    {modelDir : Option PyStr} {arg : PyStr} {p : ParsedRef} {r : Registry}
    {inh : Inhibition} (hp : parseRef env modelDir arg = .ok p)
    (hinh : r.state.inhibition = some inh) (href : inh.ref = some p.ref)
    (hsafe : isSafetyInhibition inh.reason = false) (now : Int) :
    (recoverRef env modelDir none now requeue arg r).2.state.inhibition = none := by
  unfold recoverRef
  simp only [hp, hinh, href, hsafe, if_true, Bool.false_eq_true, if_false]
  rw [recoverJobs_state hk, Registry.clearInhibition_inhibition]

/-- **When an inhibition can be recovered.**  A record that is not safety-class
can be cleared by some argument exactly when its stored ref is accepted by
{lit}`parse_ref` and returned unchanged. -/
theorem exists_recoverRef_iff {requeue : Requeue} (hk : requeue.KeepsState)
    (env : RefEnv) (modelDir : Option PyStr) (now : Int) {r : Registry}
    {inh : Inhibition} (hinh : r.state.inhibition = some inh)
    (hsafe : isSafetyInhibition inh.reason = false) :
    (∃ arg, (recoverRef env modelDir none now requeue arg r).2.state.inhibition = none) ↔
      ∃ p, parseRef env modelDir (inh.ref.getD []) = .ok p ∧ inh.ref = some p.ref := by
  constructor
  · rintro ⟨arg, hclear⟩
    rcases recoverRef_inhibition hk env modelDir none now arg r with
      hsame | ⟨-, inh', p, hinh', -, hp, href⟩
    · rw [hsame, hinh] at hclear
      contradiction
    · rw [hinh] at hinh'
      obtain rfl := Option.some.inj hinh'
      exact ⟨p, by rw [href]; exact parseRef_ref hp, href⟩
  · rintro ⟨p, hp, href⟩
    exact ⟨_, recoverRef_clears hk hp hinh href hsafe now⟩

end FrigateXdna
