import FrigateXdna.Errors
import FrigateXdna.Library.Program
import FrigateXdna.Observability.Stability

/-!
# The stability runner

A run of {lit}`fxdna stability run` is a program over the journal directories: the latch
on the previous run, the supervisor, the journal, the phases, the result.  Runs follow one
another; each may die at any point, and an operator may acknowledge a run at any time.

The files are all the code has.  Beside them the state keeps what became of each run, for
the law that an interrupted run keeps the next one from the device.  The checkpoint file, the
console and the counters of a run decide nothing here and are left out.

Main results:

- Definition {lit}`runStability`: the run as a program.
- Definition {lit}`StabilityStation.machine`: runs, deaths and acknowledgements.
-/

namespace FrigateXdna
namespace Observability

open Python Library

/-! ## The state -/

/-- What became of a run. -/
structure RunRecord where
  id : PyStr
  sequence : Nat := 0
  entered : Bool := false
  finished : Bool := false
  acknowledged : Bool := false
deriving DecidableEq, Repr

/-- The run entered its device phase, has no result and has not been acknowledged. -/
def RunRecord.Open (r : RunRecord) : Prop :=
  r.entered = true ∧ r.finished = false ∧ r.acknowledged = false

instance (r : RunRecord) : Decidable r.Open :=
  inferInstanceAs (Decidable (_ ∧ _ ∧ _))

/-- The journal directories, the run that has opened its journal, and the runs before it. -/
structure Bench where
  runs : Runs := ∅
  live : Option RunRecord := none
  past : List RunRecord := []

/-- No run of the past is open. -/
def Bench.Quiet (b : Bench) : Prop :=
  ∀ r ∈ b.past, ¬ r.Open

instance (b : Bench) : Decidable b.Quiet :=
  inferInstanceAs (Decidable (∀ r ∈ b.past, ¬ r.Open))

/-! ## Actions -/

/-- What a run does, one atomic step at a time. -/
inductive BenchAct
  | read
  | construct
  | makeJournal (id : PyStr)
  | metadata
  | timeline (phase step state : PyStr)
  | activate
  | infer
  | result (outcome : PyStr)
deriving DecidableEq, Repr

/-- The phases that use the device. -/
def devicePhases : List PyStr :=
  [py "H1", py "H2", py "H3"]

namespace Bench

/-- Change the directory of the live run. -/
def editDir (b : Bench) (f : RunRecord → RunDir → RunDir) : Bench :=
  match b.live with
  | none => b
  | some j =>
      match b.runs.lookup j.id with
      | none => b
      | some d => { b with runs := b.runs.insert j.id (f j d) }

/-- Change the record of the live run. -/
def editLive (b : Bench) (f : RunRecord → RunRecord) : Bench :=
  { b with live := b.live.map f }

/-- The record that a journal appends next. -/
def crumb (j : RunRecord) (phase step state : PyStr) : Breadcrumb :=
  ⟨j.sequence + 1, phase, step, none, state⟩

/-- A run after it appended a record. -/
def noted (phase state : PyStr) (j : RunRecord) : RunRecord :=
  { j with
    sequence := j.sequence + 1
    entered := j.entered || (state == py "STARTED" && devicePhases.contains phase) }

end Bench

/-- What an action does to the directories. -/
def BenchAct.exec : BenchAct → Bench → Bench
  | .makeJournal id, b =>
      { b with
        runs := b.runs.insert id ((b.runs.lookup id).getD {}), live := some { id } }
  | .metadata, b => b.editDir fun _ d => { d with hasMetadata := true }
  | .timeline phase step state, b =>
      (b.editDir fun j d => d.append (Bench.crumb j phase step state)).editLive
        (Bench.noted phase state)
  | .result outcome, b =>
      (b.editDir fun _ d => { d with result := some outcome }).editLive fun j =>
        { j with finished := true }
  | _, b => b

/-! ## The run -/

/-- A reading of the local clock. -/
structure WallTime where
  year : Nat
  month : Nat
  day : Nat
  hour : Nat
  minute : Nat
  second : Nat
  hyear : 1000 ≤ year ∧ year ≤ 9999
  hmonth : month ≤ 12
  hday : day ≤ 31
  hhour : hour ≤ 23
  hminute : minute ≤ 59
  hsecond : second ≤ 61

/-- Two digits. -/
def twoDigits (n : Nat) : PyStr :=
  if n < 10 then 48 :: natDigits n else natDigits n

/-- {lit}`time.strftime("%Y-%m-%dT%H-%M-%S")`. -/
def WallTime.text (t : WallTime) : PyStr :=
  natDigits t.year ++ py "-" ++ twoDigits t.month ++ py "-" ++ twoDigits t.day ++ py "T" ++
    twoDigits t.hour ++ py "-" ++ twoDigits t.minute ++ py "-" ++ twoDigits t.second

/-- A process id. -/
abbrev Pid := Fin (2 ^ 31)

/-- The id of a run: the local time and the process id in hexadecimal. -/
def runId (t : WallTime) (pid : Pid) : PyStr :=
  t.text ++ py "-" ++ (Nat.toDigits 16 pid).map Char.toNat

/-- How {lit}`Supervisor(config)` ends. -/
inductive Construction
  | ready
  | refused (exitCode : Nat)
  | raised
deriving DecidableEq, Repr

/-- How the worker answers a request; {lit}`late` says that it took longer than the
tolerance. -/
inductive Answer
  | ok (late : Bool)
  | timeout
  | failed
deriving DecidableEq, Repr

/-- One pass of the loop of the steady phase. -/
structure Tick where
  stop : Bool
  timeUp : Bool
  waiting : Bool
  answer : Answer
deriving DecidableEq, Repr

/-- What a run reads from its surroundings.  A steady phase that outlasts its readings
raises. -/
structure Surroundings where
  wall : WallTime
  pid : Pid
  models : List PyStr := []
  construction : Construction := .ready
  inhibited : Bool := false
  modelState : PyStr := py "PREPARED"
  activation : Option PyStr := none
  probe : Answer := .ok false
  calibration : Nat → Bool × Answer := fun _ => (false, .ok false)
  zeroMedian : Bool := false
  steady : List Tick := []
  stopAfter : PyStr → Bool := fun _ => false

/-- The arguments of {lit}`run_stability`. -/
structure Arguments where
  ref : Option PyStr := none
  configured : Bool := false
  profile : PyStr := py "gentle"
  calWarmup : Nat := 5
  calMeasured : Nat := 25

/-- The program of a run; the result is its exit code. -/
abbrev RunProg (β : Type) := Program Bench BenchAct Unit β

/-- {lit}`PROFILES`. -/
def phasesOf (profile : PyStr) : Option (List PyStr) :=
  if profile = py "smoke" then some [py "E0", py "H1", py "H2"]
  else if profile = py "gentle" then some [py "E0", py "H1", py "H2", py "H3"]
  else none

/-- {lit}`DEFERRED_PROFILES`. -/
def deferredProfiles : List PyStr :=
  [py "pm", py "extended", py "coexistence"]

/-- {lit}`_resolve_ref`. -/
def resolveRef (models : List PyStr) (args : Arguments) : Option PyStr :=
  if args.configured then
    match models with
    | [ref] => some ref
    | _ => none
  else args.ref.filter fun ref => !ref.isEmpty

/-- {lit}`infer_once`: the error code, if any. -/
def Answer.error : Answer → Option PyStr
  | .ok late => if late then some (py "TIMEOUT") else none
  | .timeout => some (py "TIMEOUT")
  | .failed => some (py "WORKER_FAILED")

/-- Append a record to the timeline. -/
def note (phase step state : PyStr) : RunProg Unit := do
  let _ ← Program.perform (.timeline phase step state)
  pure ()

/-- {lit}`infer_once`. -/
def inferOnce (answer : Answer) : RunProg (Option PyStr) := do
  let _ ← Program.perform .infer
  pure answer.error

/-- What the latch answers to the directories it finds: an exit code to refuse with. -/
def startupLatch (runs : Runs) : Option Nat :=
  match loadReport runs none with
  | none => none
  | some report =>
      if report.interrupted.isNone then none
      else if report.acknowledge.isSome then none
      else some exitDeviceUnavailable

/-- {lit}`_check_startup_latch`. -/
def checkStartupLatch : RunProg (Option Nat) := do
  let b ← Program.perform .read
  pure (startupLatch b.runs)

/-- {lit}`phase_e0`; {lit}`VERIFIED` and {lit}`ACTIVE` satisfy {lit}`PREPARED`. -/
def phaseE0 (env : Surroundings) : Option PyStr :=
  if env.inhibited then some (py "SAFETY_INHIBITED")
  else if [py "PREPARED", py "VERIFIED", py "ACTIVE"].contains env.modelState then none
  else some (py "NOT_PREPARED")

/-- {lit}`_start_run`. -/
def startRun (env : Surroundings) : RunProg (Option PyStr) := do
  let _ ← Program.perform .metadata
  note (py "RUN") (py "RUN") (py "STARTED")
  pure (phaseE0 env)

/-- {lit}`phase_h1`. -/
def phaseH1 (env : Surroundings) : RunProg (Option PyStr) := do
  note (py "H1") (py "PHASE") (py "STARTED")
  let _ ← Program.perform .activate
  match env.activation with
  | some _ =>
      note (py "H1") (py "PHASE") (py "COMPLETED")
      pure (some (py "ACTIVATION_FAILED"))
  | none =>
      let err ← inferOnce env.probe
      note (py "H1") (py "PHASE") (py "COMPLETED")
      pure err

/-- The loop of {lit}`phase_h2`, with the passes that are left. -/
def calibrate (env : Surroundings) : Nat → Nat → RunProg (Option PyStr)
  | 0, _ => do
      note (py "H2") (py "PHASE") (py "COMPLETED")
      pure (if env.zeroMedian then some (py "WORKER_FAILED") else none)
  | left + 1, i => do
      if (env.calibration i).1 then
        note (py "H2") (py "PHASE") (py "COMPLETED")
        pure (some (py "INTERRUPTED"))
      else
        match ← inferOnce (env.calibration i).2 with
        | some err =>
            note (py "H2") (py "PHASE") (py "COMPLETED")
            pure (some err)
        | none => calibrate env left (i + 1)

/-- {lit}`phase_h2`. -/
def phaseH2 (args : Arguments) (env : Surroundings) : RunProg (Option PyStr) := do
  note (py "H2") (py "PHASE") (py "STARTED")
  calibrate env (args.calWarmup + args.calMeasured) 0

/-- The loop of {lit}`phase_h3`. -/
def steadyLoop : List Tick → RunProg (Option PyStr)
  | [] => .raise ()
  | tick :: rest => do
      if tick.stop then
        note (py "H3") (py "PHASE") (py "COMPLETED")
        pure (some (py "INTERRUPTED"))
      else if tick.timeUp then
        note (py "H3") (py "PHASE") (py "COMPLETED")
        pure none
      else if tick.waiting then steadyLoop rest
      else
        match ← inferOnce tick.answer with
        | some err =>
            note (py "H3") (py "PHASE") (py "COMPLETED")
            pure (some err)
        | none => steadyLoop rest

/-- {lit}`phase_h3`. -/
def phaseH3 (env : Surroundings) : RunProg (Option PyStr) := do
  note (py "H3") (py "PHASE") (py "STARTED")
  steadyLoop env.steady

/-- The phases with their ids. -/
def phaseFns (args : Arguments) (env : Surroundings) :
    List (PyStr × RunProg (Option PyStr)) :=
  [(py "H1", phaseH1 env), (py "H2", phaseH2 args env), (py "H3", phaseH3 env)]

/-- The phases of the plan one after another, until one fails or the operator stops the run
in between. -/
def runPhases (env : Surroundings) (plan : List PyStr) :
    List (PyStr × RunProg (Option PyStr)) → Option PyStr → RunProg (Option PyStr)
  | [], err => pure err
  | (id, phase) :: rest, err => do
      if err.isNone && plan.contains id then
        let err ← phase
        if err.isNone && env.stopAfter id && plan.getLast? != some id then
          runPhases env plan rest (some (py "INTERRUPTED"))
        else runPhases env plan rest err
      else runPhases env plan rest err

/-- {lit}`_exit_for_failure`. -/
def exitForFailure (code : PyStr) : Nat :=
  if code = py "NOT_PREPARED" ∨ code = py "INTERRUPTED" then exitNotReady
  else if code = py "INVALID_ARGS" then exitInvalidArgs
  else exitDeviceUnavailable

/-- {lit}`_finish_run`: the result first, then the end of the run in the timeline. -/
def finishRun (err : Option PyStr) : RunProg Nat := do
  let _ ← Program.perform (.result (if err.isNone then py "PASS" else py "FAIL"))
  note (py "RUN") (py "RUN") (py "COMPLETED")
  pure ((err.map exitForFailure).getD 0)

/-- What {lit}`run_stability` does once the supervisor is there. -/
def journaledRun (args : Arguments) (env : Surroundings) (plan : List PyStr) : RunProg Nat := do
  let _ ← Program.perform (.makeJournal (runId env.wall env.pid))
  let err ← startRun env
  let err ← runPhases env plan (phaseFns args env) err
  finishRun err

/-- {lit}`run_stability`. -/
def runStability (args : Arguments) (env : Surroundings) : RunProg Nat := do
  if deferredProfiles.contains args.profile then pure exitNotReady
  else
    match phasesOf args.profile, resolveRef env.models args with
    | none, _ | _, none => pure exitInvalidArgs
    | some plan, some _ =>
        match ← checkStartupLatch with
        | some code => pure code
        | none =>
            let _ ← Program.perform .construct
            match env.construction with
            | .refused code => pure code
            | .raised => .raise ()
            | .ready => journaledRun args env plan

/-! ## Runs one after another -/

/-- The bench and the run in progress. -/
structure StabilityStation where
  bench : Bench := {}
  run : Option (RunProg Nat) := none

namespace StabilityStation

/-- What the environment chooses: a run starts or acts, the process dies, within an append
to the timeline perhaps, or the operator acknowledges a run. -/
inductive Label
  | start (args : Arguments) (env : Surroundings)
  | turn
  | die (torn : Option Bool)
  | acknowledge (reason : PyStr) (runId : Option PyStr)

/-- What the law is about, with the bench before the step. -/
inductive Event
  | constructs (before : Bench)
  | activates (before : Bench)

/-- What an action shows. -/
def shown : BenchAct → Bench → List Event
  | .construct, b => [.constructs b]
  | .activate, b => [.activates b]
  | _, _ => []

/-- The live run joins the past. -/
def close (b : Bench) : Bench :=
  { b with live := none, past := b.past ++ b.live.toList }

/-- What is left of the append that the death of the process cuts short. -/
def torn (next : Option BenchAct) (whole : Option Bool) (b : Bench) : Bench :=
  match next, whole with
  | some (.timeline phase step state), some whole =>
      b.editDir fun j d => d.tear (Bench.crumb j phase step state) whole
  | _, _ => b

/-- The next action of the run in progress. -/
def next (s : StabilityStation) : Option BenchAct :=
  match s.run with
  | some (.act a _) => some a
  | _ => none

/-- The operator acknowledges a run. -/
def acknowledged (b : Bench) (reason : PyStr) (runId : Option PyStr) : Bench :=
  match acknowledgeRun b.runs reason runId with
  | (.refused _, _) => b
  | (.acknowledged id, runs) =>
      let mark (r : RunRecord) : RunRecord :=
        if r.id = id then { r with acknowledged := true } else r
      { runs, live := b.live.map mark, past := b.past.map mark }

/-- One step. -/
def step (s : StabilityStation) : Label → Option (StabilityStation × List Event)
  | .start args env =>
      if s.run.isSome then none
      else some ({ s with run := some (runStability args env) }, [])
  | .turn =>
      match s.run with
      | none => none
      | some (.act a k) => some (⟨a.exec s.bench, some (k s.bench)⟩, shown a s.bench)
      | some _ => some (⟨close s.bench, none⟩, [])
  | .die whole =>
      if s.run.isNone then none
      else some (⟨close (torn s.next whole s.bench), none⟩, [])
  | .acknowledge reason runId =>
      some ({ s with bench := acknowledged s.bench reason runId }, [])

/-- Stability runs as a machine. -/
def machine : Machine StabilityStation Label Event where
  step := step

end StabilityStation
end Observability
end FrigateXdna
