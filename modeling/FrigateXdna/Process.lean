import FrigateXdna.Supervisor.Preparation

/-!
# The manager process

The threads of the manager process take turns on its state, one atomic action at a time:
admin calls, model uploads, and at most one thread that advances jobs, which is the serve
loop of the daemon or the wait of a standalone command.  The process may die at any
point; the next one first repairs the data dir.

Main results:

- Definition {lit}`Process.machine`: the process as a labelled machine.
- Theorem {lit}`Process.step_cases`: what one step does to the shared state.
- Theorem {lit}`Process.invariant`: what every action and every outside event keeps.
- Theorem {lit}`Process.opened_mem_iff`: which steps open a compile attempt.
-/

namespace FrigateXdna

open Python Library

/-! ## Tasks -/

/-- What a thread of the manager process runs. -/
inductive Task
  | construct
  | prepare (ref kind : PyStr) (refresh : Bool) (acquired : Acquired)
  | reconcile (found : PyStr → Found)
  | upload (data : Bytes)
  | requeue (ref : PyStr)
  | pump (dt : Int)
  | wait (uuid : PyStr) (dt : Int) (pumping : Bool)

namespace Task

/-- The program of a task. -/
def program (setup : Setup) : Task → ThreadProg Unit
  | construct => spread (FrigateXdna.construct setup)
  | prepare ref kind refresh acquired => FrigateXdna.prepare setup ref kind refresh acquired
  | reconcile found => reconcileConfigured setup found
  | upload data => ingestZmqBytes setup data
  | requeue ref => requeueRef setup ref
  | pump dt => FrigateXdna.pump setup dt
  | wait uuid dt pumping => spread (waitStep setup uuid dt pumping)

/-- Whether a task advances jobs. -/
def pumps : Task → Bool
  | pump _ => true
  | wait _ _ pumping => pumping
  | _ => false

/-- Whether a task repairs the data dir. -/
def constructs : Task → Bool
  | construct => true
  | _ => false

/-- Whether a task is a preparation whose caller asked for a refresh.  The refreshes of
{lit}`reconcile_configured` are automatic. -/
def refreshes : Task → Bool
  | prepare _ _ refresh _ => refresh
  | _ => false

end Task

/-! ## The machine -/

/-- The manager process: its shared state and its threads. -/
abbrev Process := Pool Manager Act Raised Task

namespace Process

/-- How a compile attempt is opened: by a submission, by one whose caller asked for a refresh,
by {lit}`retry_due`, by an operator's requeue, or by the thread that advances jobs. -/
inductive Opener
  | submit
  | refresh
  | resume
  | requeue
  | pump
deriving DecidableEq, Repr

/-- What a step of the process shows: an attempt was opened for a key, the row of a
{lit}`PREPARED` job was rewritten to {lit}`COMPILE_FAILED`, or the repair of the data dir
is complete.  The state is the one before the step. -/
inductive Event
  | opened (opener : Opener) (key : Option PyStr) (before : Manager)
  | overwritten (uuid : PyStr) (before : Manager)
  | constructed (state : Manager)

/-- What the environment chooses at a step. -/
inductive Label
  | start (task : Task)
  | turn (i : Nat)
  | abort (i : Nat)
  | outside (e : Outside)
  | crash (bootToken : PyStr)

/-- Whether the data dir is being repaired. -/
def constructing (P : Process) : Bool :=
  P.threads.any fun th => th.1.constructs

/-- The task of a thread. -/
def taskAt (P : Process) (i : Nat) : Option Task :=
  (P.threads[i]?).map Prod.fst

/-- The keys of the rows that stand in one registry and not in another. -/
def newKeys (r r' : Registry) : List (Option PyStr) :=
  (r'.jobs.filter fun j => !(r.jobs.any fun old => old.uuid == j.uuid)).map JobRow.compileKey

/-- The attempts that an action of a task opens. -/
def openedBy (setup : Setup) (task : Task) (a : Act) (s : Manager) : List Event :=
  let rows := newKeys s.registry (a.exec setup s).registry
  match a with
  | .stmt (.createJob row) => if row.hit then [] else [.opened .pump row.compileKey s]
  | .stmt _ => []
  | .submit _ _ _ =>
      rows.map fun key => .opened (if task.refreshes then .refresh else .submit) key s
  | .resume _ _ _ => rows.map fun key => .opened .resume key s
  | .requeue _ _ => rows.map fun key => .opened .requeue key s

/-- The {lit}`PREPARED` row that an action rewrites to {lit}`COMPILE_FAILED`. -/
def overwrittenBy (a : Act) (s : Manager) : List Event :=
  match a with
  | .stmt (.setJob uuid .compileFailed _) =>
      if s.isPrepared uuid then [.overwritten uuid s] else []
  | _ => []

/-- What a turn of a thread shows. -/
def shown (setup : Setup) (P : Process) (i : Nat) : List Event :=
  match P.threads[i]? with
  | some (task, .act a _) => openedBy setup task a P.shared ++ overwrittenBy a P.shared
  | some (.construct, .ret _) => [.constructed P.shared]
  | _ => []

/-- Whether the repair of the data dir raised: the process cannot go on. -/
def refused (P : Process) (i : Nat) : Bool :=
  match P.threads[i]? with
  | some (.construct, .raise _) => true
  | _ => false

/-- A new process on a data dir. -/
def boot (setup : Setup) (bootToken : PyStr) (s : Manager) : Process where
  shared := { s with backends := ∅, bootToken }
  threads := [(.construct, Task.construct.program setup)]

/-- One step of the process.  A task starts once the data dir is repaired, and at most
one thread advances jobs.  A thread other than the repair may die of an exception at any
point. -/
def step (setup : Setup) (P : Process) : Label → Option (Process × List Event)
  | .start task =>
      if task.constructs || P.constructing ||
          task.pumps && P.threads.any fun th => th.1.pumps then none
      else some ({ P with threads := P.threads ++ [(task, task.program setup)] }, [])
  | .turn i =>
      if refused P i then none
      else (P.turn (Act.exec setup) i).map fun P' => (P', shown setup P i)
  | .abort i =>
      if P.constructing then none
      else some ({ P with threads := P.threads.eraseIdx i }, [])
  | .outside e => (e.happen setup P.shared).map fun s => ({ P with shared := s }, [])
  | .crash bootToken => some (boot setup bootToken P.shared, [])

/-- The process as a machine. -/
def machine (setup : Setup) : Machine Process Label Event where
  step := step setup

/-- The first process on an empty data dir. -/
def first (setup : Setup) (bootToken : PyStr) : Process :=
  boot setup bootToken {}

/-! ## What a step does to the shared state -/

/-- The action that a step performs. -/
def action (P : Process) : Label → Option Act
  | .turn i => P.next i
  | _ => none

variable {setup : Setup}

/-- The shared state after a step: the same, changed by the next action of a thread, by an
outside event, or by a crash. -/
theorem step_cases {P P' : Process} {l : Label} {es : List Event}
    (h : step setup P l = some (P', es)) :
    (action P l = none ∧ P'.shared = P.shared ∧
        ∀ e ∈ es, ∃ i, l = .turn i ∧ P.taskAt i = some .construct ∧
          e = .constructed P.shared) ∨
      (∃ i task a, l = .turn i ∧ P.taskAt i = some task ∧ action P l = some a ∧
        P'.shared = a.exec setup P.shared ∧
        es = openedBy setup task a P.shared ++ overwrittenBy a P.shared) ∨
      (∃ e, l = .outside e ∧ action P l = none ∧
        e.happen setup P.shared = some P'.shared ∧ es = []) ∨
      (∃ token, l = .crash token ∧ action P l = none ∧
        P' = boot setup token P.shared ∧ es = []) := by
  cases l with
  | start task =>
      simp only [step] at h
      split at h
      · contradiction
      · cases h
        exact Or.inl ⟨rfl, rfl, by simp⟩
  | turn i =>
      simp only [step] at h
      split at h
      · contradiction
      · obtain ⟨Q, hturn, hQ⟩ := Option.map_eq_some_iff.mp h
        cases hQ
        rcases hi : P.threads[i]? with _ | ⟨task, p⟩
        · simp [Pool.turn, hi] at hturn
        · cases p with
          | ret b =>
              simp only [Pool.turn, hi] at hturn
              cases hturn
              refine Or.inl ⟨by simp [action, Pool.next, hi], rfl, ?_⟩
              simp only [shown, hi]
              cases task with
              | construct => simp [taskAt, hi]
              | _ => simp
          | raise e =>
              simp only [Pool.turn, hi] at hturn
              cases hturn
              exact Or.inl ⟨by simp [action, Pool.next, hi], rfl, by simp [shown, hi]⟩
          | act a k =>
              simp only [Pool.turn, hi] at hturn
              cases hturn
              exact Or.inr (Or.inl ⟨i, task, a, rfl, by simp [taskAt, hi],
                by simp [action, Pool.next, hi], rfl, by simp [shown, hi]⟩)
  | abort i =>
      simp only [step] at h
      split at h
      · contradiction
      · cases h
        exact Or.inl ⟨rfl, rfl, by simp⟩
  | outside e =>
      obtain ⟨s, hs, hP⟩ := Option.map_eq_some_iff.mp h
      cases hP
      exact Or.inr (Or.inr (Or.inl ⟨e, rfl, rfl, hs, rfl⟩))
  | crash token =>
      cases h
      exact Or.inr (Or.inr (Or.inr ⟨token, rfl, rfl, rfl, rfl⟩))

/-- What every action, every outside event and every crash keeps holds after every
step. -/
theorem invariant {I : Manager → Prop}
    (hact : ∀ a s, I s → I (Act.exec setup a s))
    (hout : ∀ e s s', I s → Outside.happen setup e s = some s' → I s')
    (hcrash : ∀ token s, I s → I { s with backends := ∅, bootToken := token })
    {P P' : Process} {l : Label} {es : List Event} (hI : I P.shared)
    (h : step setup P l = some (P', es)) : I P'.shared := by
  rcases step_cases h with ⟨-, hs, -⟩ | ⟨i, task, a, -, -, -, hs, -⟩ | ⟨e, -, -, he, -⟩ |
    ⟨token, -, -, rfl, -⟩
  · rwa [hs]
  · rw [hs]
    exact hact a _ hI
  · exact hout e _ _ hI he
  · exact hcrash token _ hI

/-- The job ids stay different. -/
theorem step_fresh {P P' : Process} {l : Label} {es : List Event}
    (hI : Fresh setup P.shared) (h : step setup P l = some (P', es)) :
    Fresh setup P'.shared :=
  invariant (fun a _ h => h.act a) (fun _ _ _ h he => h.happen he)
    (fun _ _ h => h.same rfl le_rfl) hI h

/-- The first process has no jobs. -/
theorem first_fresh (bootToken : PyStr) : Fresh setup (first setup bootToken).shared where
  minted := by simp [first, boot]
  nodup := by simp [first, boot]

/-! ## The attempts a step opens -/

/-- The attempt that an action opens. -/
def opens (setup : Setup) (a : Act) (s : Manager) : Option NewJob :=
  match a with
  | .stmt (.createJob row) => if row.hit then none else some row
  | .stmt _ => none
  | .submit ref key extra => JobManager.submitted setup s ref key extra
  | .resume uuid ref key => JobManager.retried setup s uuid ref key
  | .requeue ref key => JobManager.requeued setup s ref key

/-- Who opens the attempts of an action. -/
def openerOf (task : Task) : Act → Opener
  | .stmt _ => .pump
  | .submit _ _ _ => if task.refreshes then .refresh else .submit
  | .resume _ _ _ => .resume
  | .requeue _ _ => .requeue

/-- The keys that a transaction adds. -/
theorem newKeys_of_grown {s t : Manager} {new : Option NewJob} (hfresh : Fresh setup s)
    (h : JobManager.Grown setup s t new) :
    newKeys s.registry t.registry = (new.map NewJob.compileKey).toList := by
  have hcores : newKeys s.registry t.registry =
      (t.registry.cores.filter fun j =>
        !(s.registry.jobs.any fun old => old.uuid == j.uuid)).map JobRow.compileKey := by
    simp only [newKeys, Registry.cores, List.filter_map, List.map_map]
    rfl
  rw [hcores, h, List.filter_append]
  have hold : s.registry.cores.filter (fun j =>
      !(s.registry.jobs.any fun old => old.uuid == j.uuid)) = [] := by
    refine List.filter_eq_nil_iff.mpr fun j hj => ?_
    obtain ⟨old, hmem, rfl⟩ := List.mem_map.mp hj
    simpa using ⟨old, hmem, rfl⟩
  rw [hold]
  cases new with
  | none => rfl
  | some n =>
      have hnext : (s.registry.jobs.any fun old =>
          old.uuid == (JobManager.rowOf setup s n).core.uuid) = false := by
        refine List.any_eq_false.mpr fun old hmem => ?_
        simpa [JobManager.rowOf] using hfresh.next hmem
      simp only [Option.map_some, Option.toList_some, List.nil_append,
        List.filter_cons, hnext, Bool.not_false, if_true, List.filter_nil, List.map_cons,
        List.map_nil]
      rfl

/-- **The attempts of an action.**  They are those that {lit}`opens` names. -/
theorem openedBy_eq {s : Manager} (hfresh : Fresh setup s) (task : Task) (a : Act) :
    openedBy setup task a s =
      ((opens setup a s).map fun new =>
        .opened (openerOf task a) new.compileKey s).toList := by
  cases a with
  | stmt a =>
      cases a with
      | createJob row =>
          simp only [openedBy, opens, openerOf]
          by_cases hhit : row.hit = true <;> simp [hhit]
      | _ => rfl
  | submit ref key extra =>
      simp only [openedBy, opens, openerOf]
      rw [newKeys_of_grown hfresh (JobManager.exec_submit_grown hfresh ref key extra)]
      cases JobManager.submitted setup s ref key extra <;> rfl
  | resume uuid ref key =>
      simp only [openedBy, opens, openerOf]
      rw [newKeys_of_grown hfresh (JobManager.exec_resume_grown hfresh uuid ref key)]
      cases JobManager.retried setup s uuid ref key <;> rfl
  | requeue ref key =>
      simp only [openedBy, opens, openerOf]
      rw [newKeys_of_grown hfresh (JobManager.exec_requeue_grown hfresh ref key)]
      cases JobManager.requeued setup s ref key <;> rfl

/-- A step shows an opened attempt exactly when its action opens one. -/
theorem opened_mem_iff {P P' : Process} {l : Label} {es : List Event}
    (hfresh : Fresh setup P.shared) (h : step setup P l = some (P', es))
    {opener : Opener} {key : Option PyStr} {before : Manager} :
    .opened opener key before ∈ es ↔
      before = P.shared ∧ ∃ i task a new, l = .turn i ∧ P.taskAt i = some task ∧
        action P l = some a ∧ opens setup a P.shared = some new ∧
        opener = openerOf task a ∧ key = new.compileKey := by
  rcases step_cases h with ⟨hnone, -, hes⟩ | ⟨i, task, a, hl, htask, ha, -, rfl⟩ |
    ⟨e, -, hnone, -, rfl⟩ | ⟨token, -, hnone, -, rfl⟩
  · constructor
    · intro hmem
      obtain ⟨-, -, -, he⟩ := hes _ hmem
      contradiction
    · rintro ⟨-, -, -, a, -, -, -, ha, -⟩
      rw [hnone] at ha
      contradiction
  · have hnot : .opened opener key before ∉ overwrittenBy a P.shared := by
      unfold overwrittenBy
      split
      · split <;> simp
      · simp
    rw [List.mem_append, or_iff_left hnot, openedBy_eq hfresh, Option.mem_toList,
      Option.map_eq_some_iff]
    constructor
    · rintro ⟨new, hnew, heq⟩
      obtain ⟨rfl, rfl, rfl⟩ := Event.opened.inj heq
      exact ⟨rfl, i, task, a, new, hl, htask, ha, hnew, rfl, rfl⟩
    · rintro ⟨rfl, i', task', a', new, hl', htask', ha', hnew, rfl, rfl⟩
      rw [hl] at hl'
      obtain rfl := Label.turn.inj hl'
      rw [htask] at htask'
      obtain rfl := Option.some.inj htask'
      rw [ha] at ha'
      obtain rfl := Option.some.inj ha'
      exact ⟨new, hnew, rfl⟩
  · constructor
    · intro hmem
      contradiction
    · rintro ⟨-, -, -, a, -, -, -, ha, -⟩
      rw [hnone] at ha
      contradiction
  · constructor
    · intro hmem
      contradiction
    · rintro ⟨-, -, -, a, -, -, -, ha, -⟩
      rw [hnone] at ha
      contradiction

end Process

/-! ## A host without compilers -/

/-- Several turns of one thread. -/
def Process.turns (i n : Nat) : List Process.Label :=
  List.replicate n (.turn i)

/-- A model file. -/
def sampleModel : Bytes :=
  [111, 110, 110, 120]

/-- The digest of the model file. -/
def sampleDigest : PyStr :=
  py "87e93f89f2be0db364e8be052f79f389e6c2da239831922e24513288af522a43"

/-- The input geometry of the model. -/
def sampleGeometry : List Json :=
  [.int 1, .int 3, .int 320, .int 320]

/-- The contract of the model. -/
def sampleContract : Json :=
  .obj [(py "input_shape", .arr sampleGeometry)]

/-- The compile key of the model. -/
def sampleKey : PyStr :=
  py "38c4bb591f4cd0cedd2114811e917ea89347b828cb6d6e25078a79b77d8689e0"

/-- The digests of the texts that are hashed when the model is prepared. -/
def sampleDigests : List (PyStr × PyStr) :=
  [(py "onnx", sampleDigest),
    (canonicalText (compileInput sampleDigest sampleGeometry), sampleKey),
    (canonicalText (.obj [(py "schema", .int 1), (py "compile_key", .str sampleKey),
      (py "contract", sampleContract)]),
      py "c096b80aa7a97f5538ff79a3d50c7ce47d38a9e333b7269ef9223d1d5a2bff8a"),
    (py "FXDNA-FAKE-RAI-v0:" ++ sampleKey,
      py "d0687e55427c72a8053dbd1f5ed358a3970a20bf1ca1a730049ae5ffeaf376c2")]

/-- A digest function: the real digests of the texts that are hashed when the model is
prepared, and different texts for all others. -/
def sampleSha256 (data : Bytes) : PyStr :=
  let text := data.map UInt8.toNat
  (sampleDigests.lookup text).getD (48 :: text)

/-- The digests of the model are not empty and do not start as the others do. -/
theorem sampleDigests_shape :
    sampleDigests.all (fun d => !d.2.isEmpty && !(d.2.head? == some 48)) = true := by
  decide +kernel

/-- A digest is one of the model, or starts with a zero. -/
theorem sampleSha256_cases (data : Bytes) :
    (data.map UInt8.toNat, sampleSha256 data) ∈ sampleDigests ∨
      sampleSha256 data = 48 :: data.map UInt8.toNat := by
  unfold sampleSha256
  dsimp only
  cases h : sampleDigests.lookup (data.map UInt8.toNat) with
  | none => exact Or.inr rfl
  | some digest =>
      obtain ⟨before, after, hsplit, -⟩ := List.lookup_eq_some_iff.mp h
      exact Or.inl (by rw [hsplit]; simp)

/-- Digests of the model differ, and texts differ with their digests. -/
theorem sampleDigests_distinct :
    sampleDigests.all (fun d => sampleDigests.all fun d' => !(d.2 == d'.2) || d.1 == d'.1) =
      true := by
  decide +kernel

/-- Different bytes have different digests. -/
theorem sampleSha256_injective : Function.Injective sampleSha256 := by
  intro data data' heq
  have hhead : ∀ d ∈ sampleDigests, ∀ text, d.2 ≠ 48 :: text := by
    intro d hd text hd2
    have hshape := List.all_eq_true.mp sampleDigests_shape d hd
    simp [hd2] at hshape
  have htexts : data.map UInt8.toNat = data'.map UInt8.toNat := by
    rcases sampleSha256_cases data with hmem | hother
    · rcases sampleSha256_cases data' with hmem' | hother'
      · have hdistinct := List.all_eq_true.mp
          (List.all_eq_true.mp sampleDigests_distinct _ hmem) _ hmem'
        simpa [heq] using hdistinct
      · exact absurd (heq.trans hother') (hhead _ hmem _)
    · rcases sampleSha256_cases data' with hmem' | hother'
      · exact absurd (heq.symm.trans hother) (hhead _ hmem' _)
      · exact (List.cons.inj (hother.symm.trans (heq.trans hother'))).2
  exact List.map_injective_iff.mpr (fun _ _ h => UInt8.toNat_inj.mp h) htexts

/-- A host without compiler prefixes, on which the model can be prepared. -/
def sampleSetup : Setup where
  sha256 := sampleSha256
  sha256_ne_nil data := by
    rcases sampleSha256_cases data with hmem | hother
    · have hshape := List.all_eq_true.mp sampleDigests_shape _ hmem
      simp only [Bool.and_eq_true] at hshape
      simpa using hshape.1
    · rw [hother]
      exact List.cons_ne_nil _ _
  inspect _ := .ok sampleContract
  summary _ := py "\x7b\"compatible\": true\x7d"
  uuid4 n := py "job-" ++ [n]
  uuid4_injective m n h := by simpa using h
  real := false
  backendId := py "fake-v0"

/-- A host with compilers. -/
def Process.compilingSetup : Setup :=
  { sampleSetup with real := true, backendId := py "bf16-vaiml-v1" }

/-- A host on which every compile fails. -/
def Process.failingSetup : Setup :=
  { sampleSetup with fakeCompile := { succeed := false } }

/-- The model is uploaded to a fresh data dir. -/
def Process.sampleUpload : List Process.Label :=
  Process.turns 0 6 ++
    [.outside (.space (100 * 1024 ^ 3) (100 * 1024 ^ 3)), .start (.upload sampleModel)] ++
    Process.turns 0 12

/-- The model is uploaded and compiled. -/
def Process.samplePrepared : List Process.Label :=
  Process.sampleUpload ++ [.start (.pump 1)] ++ Process.turns 0 20

/-- The model is uploaded, and its compile fails. -/
def Process.failedUpload : List Process.Label :=
  Process.sampleUpload ++ [.start (.pump 1)] ++ Process.turns 0 17

end FrigateXdna
