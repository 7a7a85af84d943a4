import FrigateXdna.Transport.Liveness

/-!
# The time budget of an inference

{lit}`INFERENCE_BUDGET_S` is declared beside the deadline of the model operations and used
nowhere: the serve loop gives every request {lit}`MODEL_OP_DEADLINE_S`, and the worker is
asked to answer within what remains of that.

Main results:

- Theorem {lit}`Frontend.receive_arrival`: the deadline of a queued request tells when it
  arrived.
- Theorem {lit}`Frontend.inTime_iff`: when the handling of one inference keeps the budget.
- Theorem {lit}`inference_budget_kept_iff`: the runs that keep it.
- Theorem {lit}`forwarded_over_budget`: a request is forwarded ten seconds after its arrival
  and given the next fifteen.
-/

namespace FrigateXdna
namespace Transport

open Python Library FrigateXdna.Runtime

/-- {lit}`INFERENCE_BUDGET_S`. -/
def inferenceBudget : Int := 150000000

/-- When a request arrived: its deadline was set on arrival. -/
def Message.arrival (m : Message) : Int :=
  m.deadline - modelOpDeadline

/-- Whether the worker loop dispatches a header to {lit}`_handle_infer`. -/
def isInference (header : Json) : Bool :=
  match header.get (py "model_request"), header.get (py "model_data"),
      header.hasKey (py "shape") with
  | .ok request, .ok data, .ok shape => !request.truthy && !data.truthy && shape
  | _, _, _ => false

/-! ## What is observed of one request -/

/-- What becomes of an inference request that the worker loop takes: when it arrived and
when it was taken, when and with what budget it was forwarded, whether it was answered
with a zero frame, and whether it was counted as {lit}`timeout` or
{lit}`late_discard`. -/
structure Handling where
  arrival : Int
  dequeued : Int
  forwarded : Option (Int × Int)
  zeroFrame : Bool
  late : Bool

/-- The request kept {lit}`INFERENCE_BUDGET_S`: it was only forwarded within the budget and
with at most the rest of it, and if it was older when taken it got a zero frame and was
counted as late. -/
def Handling.InTime (h : Handling) : Prop :=
  (∀ time budget, h.forwarded = some (time, budget) →
      time - h.arrival ≤ inferenceBudget ∧
        budget ≤ inferenceBudget - (time - h.arrival)) ∧
    (inferenceBudget < h.dequeued - h.arrival → h.zeroFrame = true ∧ h.late = true)

/-- Whether the replies are one zero frame. -/
def answersZero : List Sent → Bool
  | [x] =>
      match x.reply with
      | .raw data => data == Transport.zeroFrame
      | .json _ => false
  | _ => false

/-- The time and the budget a request is forwarded with. -/
def Phase.forwarded (time : Int) : Phase → Option (Int × Int)
  | .forwarding _ _ remain => some (time, remain)
  | _ => none

namespace Frontend

/-- What is observed of a message that is handled, with the frontend before and after. -/
def handling (env : TakeEnv) (m : Message) (f : Frontend) (r : Frontend × List Sent) :
    Handling where
  arrival := m.arrival
  dequeued := env.now
  forwarded := r.1.phase.forwarded env.forwarded
  zeroFrame := answersZero r.2
  late := r.1.counters.timeout == f.counters.timeout + 1 ||
    r.1.counters.lateDiscard == f.counters.lateDiscard + 1

/-- The inference request a step takes, as it is handled. -/
def observed (cfg : Config) (f : Frontend) : Input → List Handling
  | .take env =>
      match f.phase, f.queue with
      | .idle, m :: rest =>
          if isInference m.header then
            [handling env m f (process cfg env m { f with queue := rest })]
          else []
      | _, _ => []
  | _ => []

/-- **The deadline of a queued request tells when it arrived.** -/
theorem receive_arrival (limit : Nat) (now : Int) (parts : List Bytes) (f : Frontend) :
    ∀ m ∈ (f.receive limit now parts).1.queue, m ∈ f.queue ∨ m.arrival = now := by
  intro m hm
  unfold receive at hm
  split at hm
  · exact Or.inl hm
  · exact Or.inl hm
  · dsimp only at hm
    split at hm
    · exact Or.inl hm
    · split at hm
      · exact Or.inl hm
      · exact Or.inl hm
      · split at hm
        · exact Or.inl hm
        · rcases List.mem_append.mp hm with hm | hm
          · exact Or.inl hm
          · obtain rfl := List.mem_singleton.mp hm
            exact Or.inr (by simp [Message.arrival])

/-! ## The handling of an inference -/

/-- An inference is discarded when its deadline passed, and handled otherwise. -/
theorem process_inference {m : Message} (h : isInference m.header = true) (cfg : Config)
    (env : TakeEnv) (f : Frontend) :
    process cfg env m f =
      if env.now ≥ m.deadline then
        { f with counters :=
          { f.counters with lateDiscard := f.counters.lateDiscard + 1 } }.reply m
            (.raw Transport.zeroFrame)
      else f.handleInfer m env := by
  unfold isInference at h
  split at h
  · rename_i request data shape hrequest hdata hshape
    simp only [Bool.and_eq_true, Bool.not_eq_true'] at h
    obtain ⟨⟨hr, hd⟩, rfl⟩ := h
    unfold process expired
    simp only [hrequest, hdata, hshape, hr, hd, Bool.false_eq_true, if_false]
  · contradiction

/-- Whether {lit}`_handle_infer` forwards a request to the worker. -/
def Forwardable (env : TakeEnv) (m : Message) (f : Frontend) : Prop :=
  f.Bound m.identity ∧ env.checked < m.deadline ∧ (tensorShape m.header m.data).isSome = true

/-- When the handling of an inference keeps {lit}`INFERENCE_BUDGET_S`: the deadline of the
model operations passed before it was taken; or it was taken within the budget and is not
forwarded; or its identity is bound and that deadline passed before the second look at the
clock. -/
def KeepsBudget (env : TakeEnv) (m : Message) (f : Frontend) : Prop :=
  m.deadline ≤ env.now ∨
    env.now - m.arrival ≤ inferenceBudget ∧ ¬Forwardable env m f ∨
    f.Bound m.identity ∧ m.deadline ≤ env.checked

/-- A request that is not forwarded and was young when taken keeps the budget; an older one
does when it is answered with a zero frame and counted. -/
theorem inTime_of_not_forwarded {env : TakeEnv} {m : Message} {f : Frontend}
    {r : Frontend × List Sent} (hphase : r.1.phase.forwarded env.forwarded = none) :
    (handling env m f r).InTime ↔
      (inferenceBudget < env.now - m.arrival →
        answersZero r.2 = true ∧ (handling env m f r).late = true) := by
  unfold Handling.InTime
  simp [handling, hphase]

/-- What {lit}`_handle_infer` does with a request whose identity is not bound, or whose
tensor does not match. -/
theorem inTime_rejected (env : TakeEnv) (m : Message) (f : Frontend) (counters : Counters)
    (htimeout : counters.timeout = f.counters.timeout)
    (hlate : counters.lateDiscard = f.counters.lateDiscard) :
    (handling env m f ({ f with counters }.reply m (.raw Transport.zeroFrame))).InTime ↔
      env.now - m.arrival ≤ inferenceBudget := by
  have hnone : ({ f with counters }.reply m (.raw Transport.zeroFrame)).1.phase.forwarded
      env.forwarded = none := rfl
  rw [inTime_of_not_forwarded hnone]
  simp [handling, Frontend.reply, htimeout, hlate]

/-- A discarded request keeps the budget. -/
theorem inTime_discarded (env : TakeEnv) (m : Message) (f : Frontend) (counters : Counters)
    (h : counters.timeout = f.counters.timeout + 1 ∨
      counters.lateDiscard = f.counters.lateDiscard + 1) :
    (handling env m f ({ f with counters }.reply m (.raw Transport.zeroFrame))).InTime := by
  have hnone : ({ f with counters }.reply m (.raw Transport.zeroFrame)).1.phase.forwarded
      env.forwarded = none := rfl
  rw [inTime_of_not_forwarded hnone]
  intro _
  refine ⟨by simp [answersZero, Frontend.reply], ?_⟩
  rcases h with h | h <;> simp [handling, Frontend.reply, h]

/-- A forwarded request never keeps the budget: it is given the rest of the longer
deadline. -/
theorem not_inTime_forwarded (env : TakeEnv) (m : Message) (f : Frontend)
    (counters : Counters) (shape : List Json) :
    ¬(handling env m f ({ f with
        counters, phase := .forwarding m shape (max (m.deadline - env.forwarded) 0) },
      [])).InTime := by
  intro h
  obtain ⟨hold, hrest⟩ := h.1 env.forwarded (max (m.deadline - env.forwarded) 0) rfl
  have harrival : (handling env m f ({ f with
      counters, phase := .forwarding m shape (max (m.deadline - env.forwarded) 0) },
        [])).arrival = m.deadline - modelOpDeadline := rfl
  rw [harrival] at hold hrest
  unfold modelOpDeadline inferenceBudget at hold hrest
  omega

/-- **When the handling of one inference keeps the budget.** -/
theorem inTime_iff {cfg : Config} {env : TakeEnv} {m : Message} {f : Frontend}
    (h : isInference m.header = true) :
    (handling env m f (process cfg env m f)).InTime ↔ KeepsBudget env m f := by
  rw [process_inference h]
  by_cases hexpired : env.now ≥ m.deadline
  · rw [if_pos hexpired]
    exact iff_of_true (inTime_discarded env m f _ (Or.inr rfl)) (Or.inl hexpired)
  · rw [if_neg hexpired]
    unfold KeepsBudget Forwardable Bound handleInfer
    dsimp only
    have hyoung : m.deadline ≤ env.now ↔ False := iff_of_false hexpired id
    rw [hyoung, false_or]
    cases hget : f.sessions.get m.identity with
    | none =>
        exact (inTime_rejected env m f _ rfl rfl).trans (by simp)
    | some binding =>
        dsimp only
        by_cases hgen : binding.generation = f.generation
        · rw [if_neg (not_not.mpr hgen)]
          by_cases hlate : env.checked ≥ m.deadline
          · rw [if_pos hlate]
            exact iff_of_true (inTime_discarded env m f _ (Or.inl rfl))
              (Or.inr ⟨⟨binding, rfl, hgen⟩, hlate⟩)
          · rw [if_neg hlate]
            have hchecked : env.checked < m.deadline := Int.not_le.mp hlate
            cases hshape : tensorShape m.header m.data with
            | none =>
                exact (inTime_rejected env m f _ rfl rfl).trans (by simp [hlate])
            | some shape =>
                refine iff_of_false (not_inTime_forwarded env m f _ shape) ?_
                rintro (⟨-, hno⟩ | ⟨-, hno⟩)
                · exact hno ⟨⟨binding, rfl, hgen⟩, hchecked, rfl⟩
                · exact hlate hno
        · rw [if_pos hgen]
          exact (inTime_rejected env m f _ rfl rfl).trans (by simp [hgen])

end Frontend

/-! ## Runs -/

/-- The frontend with what becomes of the inference requests. -/
def timed (cfg : Config) : Machine Frontend Input Handling where
  step f i := (f.next cfg i).map fun r => (r.1, f.observed cfg i)

/-- An inference request that the step takes is handled within the budget. -/
def Budgeted (f : Frontend) (i : Input) : Prop :=
  ∀ env m rest, i = .take env → f.phase = .idle → f.queue = m :: rest →
    isInference m.header = true → Frontend.KeepsBudget env m { f with queue := rest }

/-- What one step shows keeps the budget exactly when the step meets the condition. -/
theorem observed_inTime_iff (cfg : Config) (f : Frontend) (i : Input) :
    (∀ h ∈ f.observed cfg i, h.InTime) ↔ Budgeted f i := by
  unfold Budgeted
  cases i with
  | take env =>
      simp only [Frontend.observed]
      split
      · rename_i m rest hphase hqueue
        by_cases hinfer : isInference m.header = true
        · rw [if_pos hinfer]
          have hiff : (Frontend.handling env m f
              (Frontend.process cfg env m { f with queue := rest })).InTime ↔
                Frontend.KeepsBudget env m { f with queue := rest } :=
            Frontend.inTime_iff hinfer
          rw [List.forall_mem_singleton, hiff]
          constructor
          · rintro h env' m' rest' ⟨⟩ - hqueue' -
            rw [hqueue] at hqueue'
            obtain ⟨rfl, rfl⟩ := List.cons.inj hqueue'
            exact h
          · exact fun h => h env m rest rfl hphase hqueue hinfer
        · rw [if_neg hinfer]
          refine iff_of_true (by simp) ?_
          rintro env' m' rest' ⟨⟩ - hqueue' hinfer'
          rw [hqueue] at hqueue'
          obtain ⟨rfl, rfl⟩ := List.cons.inj hqueue'
          exact absurd hinfer' hinfer
      · rename_i hno
        exact iff_of_true (by simp) fun env' m' rest' _ hphase' hqueue' =>
          absurd hqueue' (hno m' rest' hphase')
  | _ => exact iff_of_true (by simp [Frontend.observed]) (by rintro _ _ _ ⟨⟩)

/-- **The runs that keep the inference budget.**  Every inference request that the worker
loop takes keeps {lit}`INFERENCE_BUDGET_S` exactly when each of them meets the condition
above; in particular no run that forwards one does. -/
theorem inference_budget_kept_iff {cfg : Config} {is : List Input} {t : Frontend}
    {seen : List Handling} (hrun : (timed cfg).exec is {} = some (t, seen)) :
    (∀ h ∈ seen, h.InTime) ↔ (timed cfg).Along Budgeted is {} := by
  refine (timed cfg).exec_events_iff_along (I := fun _ => True) (fun _ _ _ _ _ _ => trivial)
    ?_ trivial hrun
  intro f i f' seen' _ hstep
  have hstep' : ((f.next cfg i).map fun r => (r.1, f.observed cfg i)) = some (f', seen') :=
    hstep
  obtain ⟨r, -, hr⟩ := Option.map_eq_some_iff.mp hstep'
  obtain ⟨-, rfl⟩ := Prod.mk.inj hr
  exact observed_inTime_iff cfg f i

/-! ## A request that is forwarded too late -/

/-- The JSON header {lit}`{"model_data": 1}`. -/
def transferHeader : Bytes :=
  (py "\x7b\"model_data\": 1\x7d").map UInt8.ofNat

/-- The JSON header of an inference on one number. -/
def tensorHeader : Bytes :=
  (py "\x7b\"shape\": [1], \"dtype\": \"float32\"\x7d").map UInt8.ofNat

/-- A prepared transfer is taken. -/
def transferTake : Frontend.TakeEnv where
  now := 0
  checked := 0
  forwarded := 0
  sha256 := py "source"
  inspection := .ok (some (py "profile"), [])
  ingest := .ok ⟨py "key", py "digest", true, py "PREPARED"⟩
  lease := true
  emitFault := none

/-- A client transfers its model, then asks for an inference that waits ten seconds in the
queue. -/
def lateRun : List Input :=
  [.receive 1000 0 [[1], transferHeader, [7]], .take transferTake, .usable readyArtifact,
    .activated 0 none (.ok true), .receive 1000 0 [[1], tensorHeader, [0, 0, 0, 0]],
    .take { transferTake with
      now := 10000000000, checked := 10000000000, forwarded := 10000000000 }]

/-- Whether a request was forwarded ten seconds after its arrival with a budget of
fifteen. -/
def Handling.overBudget (h : Handling) : Bool :=
  h.arrival == 0 && h.forwarded == some (10000000000, 15000000000)

/-- **A request is forwarded far outside its budget.** -/
theorem forwarded_over_budget :
    ∃ t seen, (timed plainConfig).exec lateRun {} = some (t, seen) ∧
      ∃ h ∈ seen, h.forwarded = some (10000000000, 15000000000) ∧ ¬h.InTime := by
  have hemits : (timed plainConfig).emits lateRun {} Handling.overBudget = true := by
    decide +kernel
  obtain ⟨t, seen, h, hrun, hmem, hover⟩ := (timed plainConfig).exists_exec_of_emits hemits
  simp only [Handling.overBudget, Bool.and_eq_true, beq_iff_eq] at hover
  refine ⟨t, seen, hrun, h, hmem, hover.2, fun hin => ?_⟩
  have hbudget := (hin.1 _ _ hover.2).1
  rw [hover.1] at hbudget
  unfold inferenceBudget at hbudget
  omega

/-- The theorem at a run in which one request waits half a minute and is discarded. -/
theorem inference_budget_kept_iff_discarded :
    ∃ t seen, (timed plainConfig).exec
        [.receive 1000 0 [[1], tensorHeader, [0, 0, 0, 0]],
          .take { plainTake with now := 30000000000 }] {} = some (t, seen) ∧
      ∀ h ∈ seen, h.InTime := by
  have hends : (timed plainConfig).endsIn
      [.receive 1000 0 [[1], tensorHeader, [0, 0, 0, 0]],
        .take { plainTake with now := 30000000000 }] {}
      (fun t => t.counters.lateDiscard == 1) = true := by
    decide +kernel
  obtain ⟨t, seen, hrun, -⟩ := (timed plainConfig).exists_exec_of_endsIn hends
  refine ⟨t, seen, hrun, (inference_budget_kept_iff hrun).mpr
    ⟨?_, fun f' out h => ⟨?_, fun _ _ _ => trivial⟩⟩⟩
  · rintro env m rest ⟨⟩
  · rintro env m rest ⟨⟩ hphase hqueue hinfer
    have hstep : ((Frontend.next plainConfig {}
        (.receive 1000 0 [[1], tensorHeader, [0, 0, 0, 0]])).map fun r =>
          (r.1, Frontend.observed plainConfig {}
            (.receive 1000 0 [[1], tensorHeader, [0, 0, 0, 0]]))) = some (f', out) := h
    obtain ⟨r, hr, hpair⟩ := Option.map_eq_some_iff.mp hstep
    obtain ⟨rfl, -⟩ := Prod.mk.inj hpair
    have hreceive : r = Frontend.receive 1000 0 [[1], tensorHeader, [0, 0, 0, 0]] {} :=
      (Option.some.inj hr).symm
    have harrived := Frontend.receive_arrival 1000 0 [[1], tensorHeader, [0, 0, 0, 0]] {} m
      (by rw [← hreceive, hqueue]; exact List.mem_cons_self)
    rcases harrived with hno | harrival
    · exact absurd hno List.not_mem_nil
    · refine Or.inl ?_
      unfold Message.arrival modelOpDeadline at harrival
      change m.deadline ≤ 30000000000
      omega

end Transport
end FrigateXdna
