import Mathlib.Data.List.AList
import Mathlib.Data.List.Sort
import FrigateXdna.Python.Json

/-!
# The journal of stability runs

Each run of the stability diagnostic owns a directory, named by its run id, with what the run
is about, an append-only timeline, and, once they exist, a result and an operator's
acknowledgement.  A write that a host reset cuts short leaves a damaged line, which the
reader skips.

Main results:

- Definition {lit}`latestRun`: the run whose id sorts last.
- Definition {lit}`detectInterrupted`: the last started step that was not completed.
- Theorem {lit}`latestRun_eq_of_greatest`: a recorded run whose id sorts last is the latest.
- Theorem {lit}`acknowledgeRun_cases`: an acknowledgement changes one directory or nothing.
-/

namespace FrigateXdna
namespace Observability

open Python

/-! ## Run ids -/

/-- {lit}`[A-Za-z0-9]`. -/
def isAlphanumeric (c : Nat) : Bool :=
  decide (48 ≤ c ∧ c ≤ 57 ∨ 65 ≤ c ∧ c ≤ 90 ∨ 97 ≤ c ∧ c ≤ 122)

/-- {lit}`[A-Za-z0-9._:-]`. -/
def isIdChar (c : Nat) : Bool :=
  isAlphanumeric c || c == 46 || c == 95 || c == 58 || c == 45

/-- {lit}`safe_run_id`: a flat directory name. -/
def safeRunId : PyStr → Bool
  | [] => false
  | c :: rest => isAlphanumeric c && decide (rest.length ≤ 127) && rest.all isIdChar

/-! ## The files of a run -/

/-- A record of {lit}`timeline.jsonl`. -/
structure Breadcrumb where
  sequence : Nat
  phase : PyStr
  step : PyStr
  cycle : Option Int
  state : PyStr
deriving DecidableEq, Repr

/-- What the completion of an operation is matched by. -/
def Breadcrumb.key (r : Breadcrumb) : PyStr × PyStr × Option Int :=
  (r.phase, r.step, r.cycle)

/-- A line of {lit}`timeline.jsonl`: a record, or text that is no JSON. -/
inductive Line
  | record (r : Breadcrumb)
  | damaged
deriving DecidableEq, Repr

/-- The directory of a run.  {lit}`unterminated` says that the last line has no line end;
the result is kept by its outcome and the acknowledgement by its reason. -/
structure RunDir where
  hasMetadata : Bool := false
  timeline : List Line := []
  unterminated : Bool := false
  result : Option PyStr := none
  acknowledge : Option PyStr := none
deriving DecidableEq, Repr

namespace RunDir

/-- The lines after text was written at the end of the file: it joins a last line that has
no end. -/
def extended (d : RunDir) (line : Line) : List Line :=
  if d.unterminated then d.timeline.dropLast ++ [.damaged] else d.timeline ++ [line]

/-- Append a record to the timeline. -/
def append (d : RunDir) (r : Breadcrumb) : RunDir :=
  { d with timeline := d.extended (.record r), unterminated := false }

/-- A host reset cuts the append short, before or within its last character. -/
def tear (d : RunDir) (r : Breadcrumb) (whole : Bool) : RunDir :=
  { d with
    timeline := d.extended (if whole then .record r else .damaged), unterminated := true }

/-- {lit}`read_timeline`: damaged lines are skipped. -/
def readTimeline (d : RunDir) : List Breadcrumb :=
  d.timeline.filterMap fun
    | .record r => some r
    | .damaged => none

theorem readTimeline_append {d : RunDir} (h : d.unterminated = false) (r : Breadcrumb) :
    (d.append r).readTimeline = d.readTimeline ++ [r] := by
  simp [append, extended, readTimeline, h]

theorem readTimeline_tear {d : RunDir} (h : d.unterminated = false) (r : Breadcrumb)
    (whole : Bool) :
    (d.tear r whole).readTimeline = d.readTimeline ++ if whole then [r] else [] := by
  cases whole <;> simp [tear, extended, readTimeline, h]

end RunDir

/-- The directories below {lit}`stability/`. -/
abbrev Runs := AList fun _ : PyStr => RunDir

/-! ## Interrupted runs -/

/-- One record and the operations that are open: {lit}`STARTED` opens, {lit}`COMPLETED`
closes. -/
def openOp (ops : List Breadcrumb) (r : Breadcrumb) : List Breadcrumb :=
  if r.state = py "STARTED" then
    if ops.any fun op => op.key == r.key then
      ops.map fun op => if op.key == r.key then r else op
    else ops ++ [r]
  else if r.state = py "COMPLETED" then ops.filter fun op => op.key != r.key
  else ops

/-- The operations that a timeline leaves open. -/
def openOps (timeline : List Breadcrumb) : List Breadcrumb :=
  timeline.foldl openOp []

/-- {lit}`max(ops, key=sequence)`: the first of the greatest. -/
def lastOp : List Breadcrumb → Option Breadcrumb :=
  List.foldl (fun best r =>
    match best with
    | none => some r
    | some b => if b.sequence < r.sequence then some r else some b) none

/-- {lit}`detect_interrupted`. -/
def detectInterrupted (timeline : List Breadcrumb) (hasResult : Bool) : Option Breadcrumb :=
  if hasResult then none else lastOp (openOps timeline)

/-- An operation with this key is open. -/
def IsOpen (key : PyStr × PyStr × Option Int) (timeline : List Breadcrumb) : Prop :=
  ∃ op ∈ openOps timeline, op.key = key

theorem openOps_append (timeline : List Breadcrumb) (r : Breadcrumb) :
    openOps (timeline ++ [r]) = openOp (openOps timeline) r := by
  simp [openOps]

/-- A start leaves its operation open. -/
theorem IsOpen.started (timeline : List Breadcrumb) {r : Breadcrumb}
    (h : r.state = py "STARTED") : IsOpen r.key (timeline ++ [r]) := by
  unfold IsOpen
  rw [openOps_append, openOp, if_pos h]
  split
  · rename_i hany
    obtain ⟨op, hop, hkey⟩ := List.any_eq_true.mp hany
    exact ⟨r, List.mem_map.mpr ⟨op, hop, if_pos hkey⟩, rfl⟩
  · exact ⟨r, by simp, rfl⟩

/-- A record of another operation leaves an operation open. -/
theorem IsOpen.append {key : PyStr × PyStr × Option Int} {timeline : List Breadcrumb}
    (h : IsOpen key timeline) {r : Breadcrumb} (hkey : r.key ≠ key) :
    IsOpen key (timeline ++ [r]) := by
  rcases h with ⟨op, hop, rfl⟩
  have hne : (op.key == r.key) = false := by simpa using Ne.symm hkey
  unfold IsOpen
  rw [openOps_append, openOp]
  split
  · split
    · exact ⟨op, List.mem_map.mpr ⟨op, hop, by simp [hne]⟩, rfl⟩
    · exact ⟨op, List.mem_append_left _ hop, rfl⟩
  · split
    · exact ⟨op, List.mem_filter.mpr ⟨hop, by simp [bne, hne]⟩, rfl⟩
    · exact ⟨op, hop, rfl⟩

/-- Of some operations there is a last one. -/
theorem lastOp_isSome {ops : List Breadcrumb} (h : ops ≠ []) : (lastOp ops).isSome := by
  have hsome : ∀ (rest : List Breadcrumb) (b : Breadcrumb),
      (rest.foldl (fun best r =>
        match best with
        | none => some r
        | some b => if b.sequence < r.sequence then some r else some b) (some b)).isSome := by
    intro rest
    induction rest with
    | nil => exact fun _ => rfl
    | cons r rest ih =>
        intro b
        rw [List.foldl_cons]
        dsimp only
        split
        · exact ih r
        · exact ih b
  cases ops with
  | nil => contradiction
  | cons r rest => exact hsome rest r

/-- A run with an open operation and without a result was interrupted. -/
theorem detectInterrupted_isSome {key : PyStr × PyStr × Option Int}
    {timeline : List Breadcrumb} (h : IsOpen key timeline) :
    (detectInterrupted timeline false).isSome := by
  rcases h with ⟨op, hop, -⟩
  exact lastOp_isSome (List.ne_nil_of_mem hop)

/-! ## Listing -/

/-- Whether a directory counts as a run. -/
def isRecorded (runs : Runs) (id : PyStr) : Bool :=
  safeRunId id && ((runs.lookup id).map RunDir.hasMetadata).getD false

/-- {lit}`list_runs`: the ids of the runs with metadata, sorted. -/
def listRuns (runs : Runs) : List PyStr :=
  (runs.keys.filter (isRecorded runs)).insertionSort fun a b => leStr a b = true

/-- {lit}`latest_run`. -/
def latestRun (runs : Runs) : Option PyStr :=
  (listRuns runs).getLast?

theorem mem_listRuns {runs : Runs} {id : PyStr} :
    id ∈ listRuns runs ↔ isRecorded runs id = true := by
  rw [listRuns, List.mem_insertionSort, List.mem_filter, and_iff_right_iff_imp]
  intro h
  cases hdir : runs.lookup id with
  | none => simp [isRecorded, hdir] at h
  | some d => exact AList.mem_keys.mpr (AList.lookup_isSome.mp (by rw [hdir]; rfl))

/-- Every recorded run comes before the latest one. -/
theorem le_latestRun {runs : Runs} {id latest : PyStr} (hid : isRecorded runs id = true)
    (h : latestRun runs = some latest) : leStr id latest = true := by
  have hmem := mem_listRuns.mpr hid
  obtain ⟨front, hlist⟩ := List.getLast?_eq_some_iff.mp h
  have : Std.Total fun a b : PyStr => leStr a b = true := ⟨leStr_total⟩
  have : IsTrans PyStr fun a b => leStr a b = true := ⟨fun _ _ _ => leStr_trans⟩
  have hsorted : (listRuns runs).Pairwise fun a b => leStr a b = true :=
    List.pairwise_insertionSort _ _
  rw [hlist] at hmem hsorted
  rcases List.mem_append.mp hmem with hfront | hlast
  · exact (List.pairwise_append.mp hsorted).2.2 id hfront latest (List.mem_singleton_self _)
  · rw [List.mem_singleton.mp hlast]
    exact leStr_refl latest

/-- **A recorded run whose id sorts last is the latest.** -/
theorem latestRun_eq_of_greatest {runs : Runs} {id : PyStr} (hid : isRecorded runs id = true)
    (hgreatest : ∀ other, isRecorded runs other = true → leStr other id = true) :
    latestRun runs = some id := by
  cases hlatest : latestRun runs with
  | none =>
      have hnil : listRuns runs = [] := List.getLast?_eq_none_iff.mp hlatest
      have hmem := mem_listRuns.mpr hid
      rw [hnil] at hmem
      exact absurd hmem List.not_mem_nil
  | some latest =>
      have hmem : latest ∈ listRuns runs := List.mem_of_getLast? hlatest
      have hle := hgreatest latest (mem_listRuns.mp hmem)
      rw [leStr_antisymm hle (le_latestRun hid hlatest)]

/-! ## Reports -/

/-- What {lit}`load_report` returns. -/
structure Report where
  runId : PyStr
  result : Option PyStr
  interrupted : Option Breadcrumb
  acknowledge : Option PyStr
deriving DecidableEq, Repr

/-- {lit}`load_report`, of the latest run when no id is given. -/
def loadReport (runs : Runs) (runId : Option PyStr) : Option Report :=
  if runId.any fun id => !safeRunId id then none
  else
    match runId.or (latestRun runs) with
    | none => none
    | some id =>
        match runs.lookup id with
        | none => none
        | some d =>
            if d.hasMetadata then
              some
                { runId := id, result := d.result
                  interrupted := detectInterrupted d.readTimeline d.result.isSome
                  acknowledge := d.acknowledge }
            else none

/-- What {lit}`acknowledge_run` answers. -/
inductive AckReply
  | acknowledged (runId : PyStr)
  | refused (code : PyStr)
deriving DecidableEq, Repr

/-- {lit}`_ack_refusal`. -/
def ackRefusal (id : Option PyStr) (report : Option Report) : Option PyStr :=
  match id, report with
  | none, _ => some (py "NOT_FOUND")
  | _, none => some (py "NOT_FOUND")
  | some _, some r =>
      if r.acknowledge.isSome then some (py "ALREADY")
      else if r.interrupted.isNone then some (py "NOT_INTERRUPTED")
      else none

/-- {lit}`acknowledge_run`, of the latest run when no id is given. -/
def acknowledgeRun (runs : Runs) (reason : PyStr) (runId : Option PyStr) : AckReply × Runs :=
  if runId.any fun id => !safeRunId id then (.refused (py "INVALID_ARGS"), runs)
  else
    let id := runId.or (latestRun runs)
    match ackRefusal id (id.bind fun id => loadReport runs (some id)), id with
    | some code, _ => (.refused code, runs)
    | none, none => (.refused (py "NOT_FOUND"), runs)
    | none, some id =>
        match runs.lookup id with
        | none => (.refused (py "NOT_FOUND"), runs)
        | some d =>
            (.acknowledged id, runs.insert id { d with acknowledge := some reason })

/-- **An acknowledgement changes one directory or nothing.** -/
theorem acknowledgeRun_cases (runs : Runs) (reason : PyStr) (runId : Option PyStr) :
    (∃ code, acknowledgeRun runs reason runId = (.refused code, runs)) ∨
      ∃ id d, runs.lookup id = some d ∧ acknowledgeRun runs reason runId =
        (.acknowledged id, runs.insert id { d with acknowledge := some reason }) := by
  unfold acknowledgeRun
  split
  · exact Or.inl ⟨_, rfl⟩
  · dsimp only
    split
    · exact Or.inl ⟨_, rfl⟩
    · exact Or.inl ⟨_, rfl⟩
    · split
      · exact Or.inl ⟨_, rfl⟩
      · rename_i id _ _ d hd
        exact Or.inr ⟨_, d, hd, rfl⟩

/-- The report of the latest run when it is one that was interrupted and not
acknowledged. -/
theorem loadReport_of_interrupted {runs : Runs} {id : PyStr} {d : RunDir}
    (hlatest : latestRun runs = some id) (hdir : runs.lookup id = some d)
    (hmeta : d.hasMetadata = true) (hresult : d.result = none)
    {key : PyStr × PyStr × Option Int} (hopen : IsOpen key d.readTimeline) :
    ∃ crumb, loadReport runs none =
      some { runId := id, result := none, interrupted := some crumb
             acknowledge := d.acknowledge } := by
  obtain ⟨crumb, hcrumb⟩ := Option.isSome_iff_exists.mp (detectInterrupted_isSome hopen)
  refine ⟨crumb, ?_⟩
  simp [loadReport, hlatest, hdir, hmeta, hresult, hcrumb]

end Observability
end FrigateXdna
