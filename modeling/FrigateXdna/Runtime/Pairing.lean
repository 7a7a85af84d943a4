import FrigateXdna.Library.Transition
import FrigateXdna.Runtime.Native

/-!
# Request/reply pairing on the worker socket

A run is any sequence of loads and inferences on one worker, with the child
writing whatever it likes during and between the calls.  Each successful call is
observed with the request it made and the requests whose reply bytes it read.

The worker never looks at {lit}`request_id` or {lit}`worker_generation` of a
reply, so a call that expires leaves its reply to be read by the next call.  The
exact law is that a call reads its own reply when the socket is quiet at its
start, that is, when every earlier request was answered and the answer read.

Main results:

- Theorem {lit}`replies_paired_iff_quiet`: the law, over every run.
- Theorem {lit}`stale_reply_consumed`: a run in which the second inference gets
  the first one's frame.
- Theorem {lit}`prompt_run_paired`: a child that answers every request in time
  with one whole message keeps all calls paired.
-/

namespace FrigateXdna
namespace Runtime

open Python Library

/-! ## Runs of calls -/

/-- One call on the worker, or a stretch of child activity between calls. -/
inductive Call
  | load (env : ExchangeEnv) (artifactPath : PyStr) (generation : Int)
      (servingDigest : PyStr) (classCount timeout : Int)
  | infer (env : ExchangeEnv) (payload : Bytes) (shape : List Json)
      (generation timeout : Int)
  | late (writes : List (ServerWrite UInt8))

/-- What a caller sees of a call that returned: the result frame of an inference
is observed, a load has none. -/
def observed {α : Type*} (frame : α → Bytes) :
    Except WorkerRaise (Served α) → List (Served Bytes)
  | .error _ => []
  | .ok s => [⟨frame s.value, s.request, s.sources⟩]

/-- One call on the worker. -/
def Call.step (w : NativeWorker) : Call → NativeWorker × List (Served Bytes)
  | .load env artifactPath generation servingDigest classCount timeout =>
      let r := w.load env artifactPath generation servingDigest classCount timeout
      (r.2, observed (fun _ => []) r.1)
  | .infer env payload shape generation timeout =>
      let r := w.infer env payload shape generation timeout
      (r.2, observed id r.1)
  | .late writes => ({ w with channel := w.channel.writes writes }, [])

/-- Runs of calls on one worker. -/
def calls : Machine NativeWorker Call (Served Bytes) where
  step w call := some (call.step w)

/-- Nothing of an earlier request is left on the socket. -/
def Quiet (w : NativeWorker) : Prop :=
  w.channel.owners = []

theorem observed_mem {α : Type*} {frame : α → Bytes}
    {r : Except WorkerRaise (Served α)} {o : Served Bytes} (h : o ∈ observed frame r) :
    ∃ s, r = .ok s ∧ o = ⟨frame s.value, s.request, s.sources⟩ := by
  cases r with
  | error e => simp [observed] at h
  | ok s => exact ⟨s, rfl, by simpa [observed] using h⟩

/-- The child's own activity keeps the socket fresh. -/
theorem late_fresh {w : NativeWorker} (hw : w.Fresh)
    (writes : List (ServerWrite UInt8)) :
    NativeWorker.Fresh { w with channel := w.channel.writes writes } := by
  intro t ht
  exact hw t (ReplyChannel.mem_owners_of_writes ht)

/-- Every call keeps the socket fresh. -/
theorem step_fresh {w : NativeWorker} (hw : w.Fresh) (call : Call) :
    (call.step w).1.Fresh := by
  cases call with
  | load env artifactPath generation servingDigest classCount timeout =>
      exact NativeWorker.load_fresh hw env artifactPath generation servingDigest
        classCount timeout
  | infer env payload shape generation timeout =>
      exact NativeWorker.infer_fresh hw env payload shape generation timeout
  | late writes => exact late_fresh hw writes

/-- A call that returned read its own reply exactly when the socket was quiet at
its start. -/
theorem step_paired_iff {w : NativeWorker} (hw : w.Fresh) {call : Call}
    {o : Served Bytes} (ho : o ∈ (call.step w).2) : o.Paired ↔ Quiet w := by
  cases call with
  | load env artifactPath generation servingDigest classCount timeout =>
      simp only [Call.step] at ho
      obtain ⟨s, hs, rfl⟩ := observed_mem ho
      exact NativeWorker.load_paired_iff hw hs
  | infer env payload shape generation timeout =>
      simp only [Call.step] at ho
      obtain ⟨s, hs, rfl⟩ := observed_mem ho
      exact NativeWorker.infer_paired_iff hw hs
  | late writes => simp [Call.step] at ho

theorem spawned_fresh : NativeWorker.spawned.Fresh := by
  intro t ht
  simp [NativeWorker.spawned] at ht

/-- Every reachable worker has a fresh socket. -/
theorem run_fresh {cs : List Call} {w : NativeWorker} {obs : List (Served Bytes)}
    (hrun : calls.exec cs .spawned = some (w, obs)) : w.Fresh := by
  refine calls.exec_invariant ?_ spawned_fresh hrun
  intro s call s' es hs hstep
  obtain ⟨rfl, rfl⟩ := Prod.mk.inj (Option.some.inj hstep)
  exact step_fresh hs call

/-! ## The pairing law -/

/-- **Request/reply pairing.**  In every run of calls on a spawned worker: if
every call starts on a quiet socket, every call that returns read the reply to
its own request; and at any point of any run, a call that returns read its own
reply exactly when the socket was quiet at its start. -/
theorem replies_paired_iff_quiet {cs : List Call} {w : NativeWorker}
    {obs : List (Served Bytes)}
    (hrun : calls.exec cs .spawned = some (w, obs)) :
    (calls.Along (fun w _ => Quiet w) cs .spawned → ∀ o ∈ obs, o.Paired) ∧
      ∀ call : Call, ∀ o ∈ (call.step w).2, (o.Paired ↔ Quiet w) := by
  constructor
  · intro hquiet
    refine (calls.exec_events_of_along ?_ spawned_fresh hquiet hrun).2
    intro s call s' es hs hq hstep
    obtain ⟨rfl, rfl⟩ := Prod.mk.inj (Option.some.inj hstep)
    exact ⟨step_fresh hs call, fun o ho => (step_paired_iff hs ho).mpr hq⟩
  · intro call o ho
    exact step_paired_iff (run_fresh hrun) ho

/-! ## A child that answers in time -/

/-- The child is alive, takes the request and answers it in time with one whole
message and nothing else. -/
structure ExchangeEnv.Prompt (env : ExchangeEnv) : Prop where
  alive : env.alive = true
  sent : env.send = .sent
  whole : ∃ frame header payload, env.writes = ReplyChannel.reply frame ∧
    ∀ starved, recvMessage env.recursionLimit starved frame =
      .message header payload frame.length

/-- An exchange with a prompt child on a quiet socket leaves it quiet. -/
theorem exchange_quiet_of_prompt {env : ExchangeEnv} (henv : env.Prompt)
    (header : Fields) (payload : Bytes) (tag : RequestTag) {timeout : Int}
    (ht : 0 ≤ timeout) {w : NativeWorker} (hw : Quiet w) :
    Quiet (w.exchange env header payload tag timeout).2 := by
  obtain ⟨frame, rep, out, hwrites, hrecv⟩ := henv.whole
  obtain ⟨hunread, hpending⟩ := List.append_eq_nil_iff.mp hw
  cases hmsg : sendMessage header payload with
  | error e =>
      simpa [NativeWorker.exchange, NativeWorker.tracedExchange, henv.alive, hmsg] using hw
  | ok bytes =>
      rw [NativeWorker.exchange_of_reply henv.alive henv.sent hwrites hmsg ht
        (List.map_eq_nil_iff.mp hunread) (by rw [hpending]; rfl) hrecv]
      rfl

/-- A call whose child is prompt and whose timeout is not negative. -/
def Call.Prompt : Call → Prop
  | .load env _ _ _ _ timeout => env.Prompt ∧ 0 ≤ timeout
  | .infer env _ _ _ timeout => env.Prompt ∧ 0 ≤ timeout
  | .late _ => True

/-- A prompt call on a quiet socket leaves it quiet. -/
theorem step_quiet_of_prompt {w : NativeWorker} (hq : Quiet w) {call : Call}
    (hp : call.Prompt) : Quiet (call.step w).1 := by
  cases call with
  | load env artifactPath generation servingDigest classCount timeout =>
      have hx := exchange_quiet_of_prompt hp.1
        (NativeWorker.loadHeader w.requests artifactPath generation servingDigest
          classCount) [] ⟨w.requests, generation⟩ hp.2 (w := w.takeId) hq
      simp only [Call.step]
      by_cases hclasses : 0 < classCount
      · rw [NativeWorker.load_of_pos env artifactPath generation servingDigest hclasses,
          Quiet, (NativeWorker.loadEnds_worker _ _ _).1]
        exact hx
      · rw [NativeWorker.load_of_nonpos env artifactPath generation servingDigest
          (Int.not_lt.mp hclasses)]
        exact hq
  | infer env payload shape generation timeout =>
      simp only [Call.step, NativeWorker.infer_worker]
      exact exchange_quiet_of_prompt hp.1 _ payload _ hp.2 (w := w.takeId) hq
  | late writes =>
      refine List.eq_nil_iff_forall_not_mem.mpr ?_
      intro t ht
      have : t ∈ w.channel.owners := ReplyChannel.mem_owners_of_writes ht
      rw [hq] at this
      simp at this

/-- As long as the child answers every request in time with one whole message,
every call reads its own reply. -/
theorem prompt_run_paired {cs : List Call} {w : NativeWorker}
    {obs : List (Served Bytes)}
    (hprompt : calls.Along (fun _ call => call.Prompt) cs .spawned)
    (hrun : calls.exec cs .spawned = some (w, obs)) : ∀ o ∈ obs, o.Paired := by
  refine (calls.exec_events_of_along (I := fun w => w.Fresh ∧ Quiet w) ?_
    ⟨spawned_fresh, rfl⟩ hprompt hrun).2
  rintro s call s' es ⟨hs, hq⟩ hp hstep
  obtain ⟨rfl, rfl⟩ := Prod.mk.inj (Option.some.inj hstep)
  exact ⟨⟨step_fresh hs call, step_quiet_of_prompt hq hp⟩,
    fun o ho => (step_paired_iff hs ho).mpr hq⟩

/-! ## A stale reply -/

/-- A reply without an error, as the native child writes it. -/
def childReply (messageType : PyStr) (requestId : Nat) (generation : Int)
    (payload : Bytes) : Bytes :=
  let js : PyStr :=
    py "\x7b\"protocol_version\":1,\"message_type\":\"" ++ messageType ++
      py "\",\"request_id\":" ++ natDigits requestId ++
      py ",\"worker_generation\":" ++ intRepr generation ++
      py ",\"payload_length\":" ++ natDigits payload.length ++
      py ",\"class_count\":0\x7d"
  packLength js.length ++ js.map UInt8.ofNat ++ payload

/-- An exchange in which the child gets the request and writes this before the
read is over. -/
def hearing (writes : List (ServerWrite UInt8)) : ExchangeEnv where
  alive := true
  send := .sent
  writes := writes
  ending := .expired
  recursionLimit := 1000
  text := []

/-- Whether some bytes are exactly one message with this property. -/
def isMessage (frame : Bytes) (p : Fields → Bytes → Bool) : Bool :=
  match recvMessage 1000 .timeoutError frame with
  | .message rep out used => p rep out && used == frame.length
  | .failed _ _ => false

/-- A whole message is received whatever would end the read. -/
theorem isMessage_recv {frame : Bytes} {p : Fields → Bytes → Bool}
    (h : isMessage frame p = true) :
    ∃ rep out, p rep out = true ∧ ∀ starved,
      recvMessage 1000 starved frame = .message rep out frame.length := by
  unfold isMessage at h
  split at h
  · rename_i rep out used hrecv
    obtain ⟨hp, hused⟩ := Bool.and_eq_true_iff.mp h
    obtain rfl := eq_of_beq hused
    exact ⟨rep, out, hp, fun starved => by
      simpa using recvMessage_append hrecv starved []⟩
  · contradiction

/-- The child's answer to the load. -/
def loadedReply : Bytes :=
  childReply (py "STATUS") 1 1 []

/-- The child's answer to the first inference: a frame that starts with the
byte 1. -/
def firstReply : Bytes :=
  childReply (py "RESULT") 2 1 (1 :: List.replicate 479 0)

/-- The answer to the load is one whole clean {lit}`STATUS`. -/
theorem loadedReply_message :
    ∃ rep out, (isType rep (py "STATUS") = true ∧
        (Fields.get rep (py "error_code")).truthy = false) ∧
      ∀ starved, recvMessage 1000 starved loadedReply =
        .message rep out loadedReply.length := by
  have hframe : isMessage loadedReply (fun rep _ =>
      isType rep (py "STATUS") && !(Fields.get rep (py "error_code")).truthy) = true := by
    decide +kernel
  obtain ⟨rep, out, hp, hrecv⟩ := isMessage_recv hframe
  simp only [Bool.and_eq_true, Bool.not_eq_true'] at hp
  exact ⟨rep, out, hp, hrecv⟩

/-- The answer to the first inference is one whole clean {lit}`RESULT`. -/
theorem firstReply_message :
    ∃ rep out, (isType rep (py "RESULT") = true ∧
        (Fields.get rep (py "error_code")).truthy = false) ∧
      (out.length = resultBytes ∧ out.head? = some 1) ∧
      ∀ starved, recvMessage 1000 starved firstReply =
        .message rep out firstReply.length := by
  have hframe : isMessage firstReply (fun rep out =>
      isType rep (py "RESULT") && !(Fields.get rep (py "error_code")).truthy &&
        (out.length == resultBytes && out.head? == some 1)) = true := by
    decide +kernel
  obtain ⟨rep, out, hp, hrecv⟩ := isMessage_recv hframe
  simp only [Bool.and_eq_true, Bool.not_eq_true', beq_iff_eq] at hp
  exact ⟨rep, out, hp.1, hp.2, hrecv⟩

/-- A clean load. -/
def cleanLoad : Call :=
  .load (hearing (ReplyChannel.reply loadedReply))
    (py "/data/artifacts/k/model.rai") 1 (py "srv") 80 loadTimeout

/-- An inference whose 10 ms budget expires before the child answers. -/
def silentInfer : Call :=
  .infer (hearing []) [0, 0, 0, 0] [.int 1] 1 10000000

/-- An inference during which the answer to the first inference arrives. -/
def answeredInfer : Call :=
  .infer (hearing (ReplyChannel.reply firstReply)) [0, 0, 0, 0] [.int 1] 1 10000000

/-- The worker after the clean load. -/
def loadedWorker : NativeWorker where
  generation := 1
  requests := 2
  loaded := true
  sockTimeout := some loadTimeout
  channel := .empty

/-- The worker after the expired inference: its request is still on the socket. -/
def waitingWorker : NativeWorker where
  generation := 1
  requests := 3
  loaded := true
  sockTimeout := some 10000000
  channel := ⟨[⟨2, 1⟩], []⟩

/-- The clean load returns on the reply to its own request. -/
theorem cleanLoad_step :
    cleanLoad.step .spawned =
      (loadedWorker, [⟨[], ⟨1, 1⟩, loadedReply.map fun _ => ⟨1, 1⟩⟩]) := by
  obtain ⟨rep, out, ⟨htype, hcode⟩, hrecv⟩ := loadedReply_message
  obtain ⟨bytes, hmsg⟩ : ∃ bytes, sendMessage (NativeWorker.loadHeader 1
      (py "/data/artifacts/k/model.rai") 1 (py "srv") 80) [] = .ok bytes :=
    NativeWorker.exists_of_toBool (by decide +kernel)
  have hx : NativeWorker.exchange (hearing (ReplyChannel.reply loadedReply))
      (NativeWorker.loadHeader 1 (py "/data/artifacts/k/model.rai") 1 (py "srv") 80)
      [] ⟨1, 1⟩ loadTimeout NativeWorker.spawned.takeId =
      (.ok ⟨rep, out, loadedReply.map fun _ => ⟨1, 1⟩⟩, _) :=
    NativeWorker.exchange_of_reply rfl rfl rfl hmsg (by decide) rfl rfl hrecv
  have hok : ¬(!isType rep (py "STATUS") ||
      (Fields.get rep (py "error_code")).truthy) = true := by
    simp [htype, hcode]
  simp only [cleanLoad, Call.step]
  rw [NativeWorker.load_of_pos _ _ _ _ (by decide)]
  simp only [NativeWorker.spawned] at hx ⊢
  simp only [hx, NativeWorker.loadEnds, if_neg hok]
  rfl

/-- The expired inference returns nothing. -/
theorem silentInfer_step : silentInfer.step loadedWorker = (waitingWorker, []) := by
  obtain ⟨bytes, hmsg⟩ : ∃ bytes, sendMessage (NativeWorker.inferHeader 2
      [.int 1] 1) [0, 0, 0, 0] = .ok bytes :=
    NativeWorker.exists_of_toBool (by decide +kernel)
  have hx : NativeWorker.exchange (hearing [])
      (NativeWorker.inferHeader 2 [.int 1] 1) [0, 0, 0, 0] ⟨2, 1⟩ 10000000
      loadedWorker.takeId = _ :=
    NativeWorker.exchange_of_silence rfl rfl rfl rfl hmsg (by decide) rfl
  simp only [silentInfer, Call.step, NativeWorker.infer]
  simp only [loadedWorker] at hx ⊢
  simp only [hx]
  rfl

/-- The next inference returns the frame of the expired one. -/
theorem answeredInfer_waiting :
    ∃ w out, answeredInfer.step waitingWorker =
        (w, [⟨out, ⟨3, 1⟩, firstReply.map fun _ => ⟨2, 1⟩⟩]) ∧
      out.head? = some 1 := by
  obtain ⟨rep, out, ⟨htype, hcode⟩, ⟨hlen, hhead⟩, hrecv⟩ := firstReply_message
  obtain ⟨bytes, hmsg⟩ : ∃ bytes, sendMessage (NativeWorker.inferHeader 3
      [.int 1] 1) [0, 0, 0, 0] = .ok bytes :=
    NativeWorker.exists_of_toBool (by decide +kernel)
  have hx : NativeWorker.exchange (hearing (ReplyChannel.reply firstReply))
      (NativeWorker.inferHeader 3 [.int 1] 1) [0, 0, 0, 0] ⟨3, 1⟩ 10000000
      waitingWorker.takeId = (.ok ⟨rep, out, firstReply.map fun _ => ⟨2, 1⟩⟩, _) :=
    NativeWorker.exchange_of_reply rfl rfl rfl hmsg (by decide) rfl rfl hrecv
  have hok : ¬(!isType rep (py "RESULT") ||
      (Fields.get rep (py "error_code")).truthy) = true := by
    simp [htype, hcode]
  have hsize : ¬out.length ≠ resultBytes := not_not.mpr hlen
  simp only [answeredInfer, Call.step, NativeWorker.infer]
  simp only [waitingWorker] at hx ⊢
  simp only [hx, if_neg hok, if_neg hsize]
  exact ⟨_, out, rfl, hhead⟩

/-- A clean load, an expired inference, and one more inference: the last returns
the frame that the child computed for the one before.  A call that returns need
not have read its own reply. -/
theorem stale_reply_consumed :
    ∃ w obs, calls.exec [cleanLoad, silentInfer, answeredInfer] .spawned = some (w, obs) ∧
      ∃ o ∈ obs, o.request = ⟨3, 1⟩ ∧ o.value.head? = some 1 ∧ ¬o.Paired := by
  obtain ⟨w, out, hstep, hhead⟩ := answeredInfer_waiting
  refine ⟨w, [⟨[], ⟨1, 1⟩, loadedReply.map fun _ => ⟨1, 1⟩⟩,
    ⟨out, ⟨3, 1⟩, firstReply.map fun _ => ⟨2, 1⟩⟩], ?_, ?_⟩
  · simp only [Machine.exec, calls, cleanLoad_step, silentInfer_step, hstep,
      List.append_nil, List.nil_append, List.singleton_append]
  · refine ⟨_, List.mem_cons_of_mem _ List.mem_cons_self, rfl, hhead, ?_⟩
    intro hpaired
    have hne : (0 : UInt8) ∈ firstReply := by decide +kernel
    have hsame : (⟨2, 1⟩ : RequestTag) = ⟨3, 1⟩ :=
      hpaired ⟨2, 1⟩ (List.mem_map.mpr ⟨0, hne, rfl⟩)
    exact absurd hsame (by decide)

/-- A first inference that is answered in time returns its own frame and leaves the
socket quiet. -/
theorem answeredInfer_loaded :
    ∃ out, answeredInfer.step loadedWorker =
      ({ loadedWorker with requests := 3, sockTimeout := some 10000000 },
        [⟨out, ⟨2, 1⟩, firstReply.map fun _ => ⟨2, 1⟩⟩]) := by
  obtain ⟨rep, out, ⟨htype, hcode⟩, ⟨hlen, -⟩, hrecv⟩ := firstReply_message
  have hinfer : loadedWorker.infer (hearing (ReplyChannel.reply firstReply)) [0, 0, 0, 0]
      [.int 1] 1 10000000 = _ :=
    NativeWorker.infer_of_reply rfl rfl rfl (by decide +kernel) (by decide) rfl hrecv htype
      hcode hlen
  exact ⟨out, by simp only [answeredInfer, Call.step, hinfer]; rfl⟩

/-- A clean load, late bytes of a child that owes nothing, and an inference that is
answered in time: the law gives that both replies are their calls' own. -/
theorem answered_calls_paired :
    ∃ w obs, calls.exec [cleanLoad, .late [⟨0, true⟩], answeredInfer] .spawned =
        some (w, obs) ∧
      obs.map Served.request = [⟨1, 1⟩, ⟨2, 1⟩] ∧ ∀ o ∈ obs, o.Paired := by
  obtain ⟨out, hinfer⟩ := answeredInfer_loaded
  have hload : calls.step .spawned cleanLoad = some (loadedWorker, _) :=
    congrArg some cleanLoad_step
  have hlate : calls.step loadedWorker (.late [⟨0, true⟩]) = some (loadedWorker, []) := rfl
  have hlast : calls.step loadedWorker answeredInfer = some (_, _) := congrArg some hinfer
  have hrun : calls.Run (fun w _ => Quiet w) .spawned _ _ _ :=
    .cons rfl hload (.cons rfl hlate (.cons rfl hlast (.nil _)))
  exact ⟨_, _, hrun.exec, rfl, (replies_paired_iff_quiet hrun.exec).1 hrun.along⟩

end Runtime
end FrigateXdna
