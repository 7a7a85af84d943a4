import FrigateXdna.Python.JsonText
import FrigateXdna.System.Progress

/-!
# A client's requests and a healthy worker

A healthy child takes requests off its socket and answers with whole frames that
report no device fault, at whatever times.  {lit}`worker_infer` should then keep
it, whatever the request is.  It does so for requests that fit the message bounds,
as long as no read ends on an empty budget; and a read finds the next frame only
when no earlier one expired inside a frame.

Main results:

- Theorem {lit}`recvMessage_stream`: a read at a frame boundary gets the next frame
  whole, or finds too few bytes.
- Theorem {lit}`requests_keep_worker`: the runs of requests that keep the worker,
  and exactly when one request keeps it.
- Theorem {lit}`long_shape_drops`: a shape that is too long when it is written
  again drops the worker.
-/

namespace FrigateXdna
namespace System

open Python Library FrigateXdna.Runtime FrigateXdna.Transport

/-! ## Frames of a healthy child -/

/-- Whether a reply leaves {lit}`worker_infer` with the worker: a refusal whose code
is none of the dropping ones, or a result of the right size. -/
def harmless (rep : Fields) (out : Bytes) : Bool :=
  if !isType rep (py "RESULT") || (Fields.get rep (py "error_code")).truthy then
    !dropsWorker (NativeWorker.orDefault (Fields.get rep (py "error_code"))
      (py "INFER_REFUSED"))
  else
    out.length == resultBytes

/-- A whole harmless frame. -/
structure Frame (limit : Nat) where
  bytes : Bytes
  header : Fields
  payload : Bytes
  whole : ∀ starved, recvMessage limit starved bytes = .message header payload bytes.length
  harmless : harmless header payload = true

/-- The bytes of a sequence of frames. -/
def streamOf {limit : Nat} (frames : List (Frame limit)) : Bytes :=
  frames.flatMap Frame.bytes

@[simp]
theorem streamOf_cons {limit : Nat} (f : Frame limit) (frames : List (Frame limit)) :
    streamOf (f :: frames) = f.bytes ++ streamOf frames :=
  rfl

/-- Frames are read in one way only: what follows a whole number of frames in a
stream is a stream. -/
theorem streamOf_rest {limit : Nat} {done frames : List (Frame limit)} {rest : Bytes}
    (h : streamOf done ++ rest <+: streamOf frames) :
    ∃ more : List (Frame limit), rest <+: streamOf more := by
  induction done generalizing frames with
  | nil => exact ⟨frames, h⟩
  | cons f done ih =>
      cases frames with
      | nil =>
          have hnil : streamOf (f :: done) ++ rest = [] := List.prefix_nil.mp h
          have hpos := (recvMessage_used_pos (f.whole .timeoutError)).1
          simp only [streamOf_cons, List.append_eq_nil_iff] at hnil
          simp [hnil.1.1] at hpos
      | cons g frames =>
          obtain ⟨tail, htail⟩ := h
          simp only [streamOf_cons, List.append_assoc] at htail
          -- both frames are what a read of the stream returns
          have hf := recvMessage_append (f.whole .timeoutError) .timeoutError
            (streamOf done ++ (rest ++ tail))
          have hg := recvMessage_append (g.whole .timeoutError) .timeoutError
            (streamOf frames)
          rw [htail, hg] at hf
          have hlen : g.bytes.length = f.bytes.length := (Received.message.inj hf).2.2
          obtain ⟨-, hrest⟩ := List.append_inj htail hlen.symm
          exact ih ⟨tail, by rw [List.append_assoc, hrest]⟩

/-- **A read at a frame boundary** gets the next frame whole, or finds too few
bytes and takes them all. -/
theorem recvMessage_stream {limit : Nat} {heard : Bytes} {frames : List (Frame limit)}
    (h : heard <+: streamOf frames) :
    (∃ f : Frame limit, f.bytes <+: heard ∧ ∀ starved,
      recvMessage limit starved heard = .message f.header f.payload f.bytes.length) ∨
    ∀ starved, recvMessage limit starved heard = .failed starved heard.length := by
  cases frames with
  | nil =>
      right
      have hnil : heard = [] := List.prefix_nil.mp h
      subst hnil
      exact fun _ => rfl
  | cons f more =>
      rw [streamOf_cons] at h
      by_cases hlen : f.bytes.length ≤ heard.length
      · left
        obtain ⟨rest, rfl⟩ : f.bytes <+: heard :=
          List.prefix_of_prefix_length_le (List.prefix_append _ _) h hlen
        exact ⟨f, List.prefix_append _ _,
          fun starved => recvMessage_append (f.whole starved) starved rest⟩
      · right
        have hshort : heard = f.bytes.take heard.length := by
          have htake := List.prefix_iff_eq_take.mp h
          rwa [List.take_append_of_le_length (by omega)] at htake
        intro starved
        have hcut : recvMessage limit starved (f.bytes.take heard.length) =
            .failed starved heard.length :=
          recvMessage_of_short (f.whole starved) (Nat.lt_of_not_le hlen)
        rwa [← hshort] at hcut

/-! ## One exchange -/

/-- The bytes on the socket when the reply to an inference is read. -/
def heard (env : ExchangeEnv) (generation : Int) (w : NativeWorker) : Bytes :=
  (w.takeId.answered env ⟨w.requests, generation⟩).channel.unread.map Prod.fst

/-- A healthy child and its transport during one inference: alive, neither closing
nor resetting the socket, and writing nothing but harmless frames.  {lit}`taken` is
what was read of its frames before. -/
structure Healthy (limit : Nat) (taken : Bytes) (env : ExchangeEnv) (generation : Int)
    (w : NativeWorker) : Prop where
  alive : env.alive = true
  unbroken : ∀ count, env.send ≠ .broken count
  ending : env.ending = .expired
  parser : env.recursionLimit = limit
  stream : ∃ frames : List (Frame limit),
    taken ++ heard env generation w <+: streamOf frames

/-- What was read so far is a whole number of frames. -/
def AtBoundary (limit : Nat) (taken : Bytes) : Prop :=
  ∃ done : List (Frame limit), taken = streamOf done

/-- Whether a whole reply is there. -/
def replyReady (env : ExchangeEnv) (generation : Int) (w : NativeWorker) : Bool :=
  match recvMessage env.recursionLimit .timeoutError (heard env generation w) with
  | .message _ _ _ => true
  | .failed _ _ => false

/-- The condition under which a healthy worker is kept at a frame boundary: the
request fits the bounds of a message, a send that does not go through has a timeout
other than zero, and a read that has to wait has some budget left. -/
def Fits (env : ExchangeEnv) (payload : Bytes) (shape : List Json)
    (generation timeout : Int) (w : NativeWorker) : Prop :=
  (sendMessage (NativeWorker.inferHeader w.requests shape generation) payload).toBool ∧
    match env.send.raises w.sockTimeout with
    | some _ => w.sockTimeout ≠ some 0
    | none => replyReady env generation w = true ∨ 0 < timeout

theorem dropsWorker_workerIo : dropsWorker (.str (py "WORKER_IO")) = true := by
  decide

theorem dropsWorker_timeout : dropsWorker (.str (py "TIMEOUT")) = false := by
  decide

/-- Whether the end of a call makes {lit}`worker_infer` drop the worker. -/
def dropping {α : Type} : Except WorkerRaise α → Bool
  | .error (.worker e) => dropsWorker e.code
  | _ => false

@[simp]
theorem dropping_valueError {α : Type} (text : PyStr) :
    dropping (.error (exchangeRaise text .valueError) : Except WorkerRaise α) = true := by
  simp only [exchangeRaise]
  exact dropsWorker_workerIo

@[simp]
theorem dropping_blocking {α : Type} (text : PyStr) :
    dropping (.error (exchangeRaise text .blockingIOError) : Except WorkerRaise α) =
      true := by
  simp only [exchangeRaise]
  exact dropsWorker_workerIo

@[simp]
theorem dropping_timeout {α : Type} (text : PyStr) :
    dropping (.error (exchangeRaise text .timeoutError) : Except WorkerRaise α) =
      false := by
  simp only [exchangeRaise, if_true]
  exact dropsWorker_timeout

/-- A whole reply on a quiet socket is what is heard. -/
theorem heard_of_reply {env : ExchangeEnv} {generation : Int} {w : NativeWorker}
    {frame : Bytes} (hquiet : w.channel.owners = [])
    (hwrites : env.writes = ReplyChannel.reply frame) (hne : frame ≠ []) :
    heard env generation w = frame := by
  simp only [heard, NativeWorker.answered, NativeWorker.takeId_channel, hwrites,
    ReplyChannel.quiet_send_reply hquiet _ hne]
  simp [Function.comp_def]

/-- At a frame boundary a healthy child's next bytes begin a frame. -/
theorem Healthy.at_boundary {limit : Nat} {taken : Bytes} {env : ExchangeEnv}
    {generation : Int} {w : NativeWorker} (hw : Healthy limit taken env generation w)
    (hdone : AtBoundary limit taken) :
    ∃ frames : List (Frame limit), heard env generation w <+: streamOf frames := by
  obtain ⟨done, rfl⟩ := hdone
  obtain ⟨frames, h⟩ := hw.stream
  exact streamOf_rest h

/-- A failing exchange ends the inference with the same error. -/
theorem dropping_infer_error {env : ExchangeEnv} {payload : Bytes} {shape : List Json}
    {generation timeout : Int} {w : NativeWorker} {e : WorkerRaise}
    (h : (NativeWorker.exchange env (NativeWorker.inferHeader w.requests shape generation)
      payload ⟨w.requests, generation⟩ timeout w.takeId).1 = .error e) :
    (w.infer env payload shape generation timeout).1 = .error e := by
  unfold NativeWorker.infer
  cases hx : NativeWorker.exchange env (NativeWorker.inferHeader w.requests shape
    generation) payload ⟨w.requests, generation⟩ timeout w.takeId with | mk result w'
  rw [hx] at h
  dsimp only at h
  subst h
  simp only [hx]

/-- A harmless reply never drops the worker. -/
theorem dropping_infer_harmless {env : ExchangeEnv} {payload : Bytes}
    {shape : List Json} {generation timeout : Int} {w : NativeWorker}
    {rep : Runtime.Reply}
    (h : (NativeWorker.exchange env (NativeWorker.inferHeader w.requests shape generation)
      payload ⟨w.requests, generation⟩ timeout w.takeId).1 = .ok rep)
    (hrep : harmless rep.header rep.payload = true) :
    dropping (w.infer env payload shape generation timeout).1 = false := by
  unfold NativeWorker.infer
  cases hx : NativeWorker.exchange env (NativeWorker.inferHeader w.requests shape
    generation) payload ⟨w.requests, generation⟩ timeout w.takeId with | mk result w'
  rw [hx] at h
  dsimp only at h
  subst h
  simp only [hx]
  unfold harmless at hrep
  split at hrep
  · rename_i hrefused
    rw [if_pos hrefused]
    change dropsWorker (NativeWorker.orDefault _ _) = false
    simpa using hrep
  · rename_i hresult
    rw [if_neg hresult, if_neg (by simpa using hrep)]
    rfl

/-- A stalled send on a socket with a timeout ends the call. -/
theorem raises_of_stalled {env : ExchangeEnv} {sockTimeout : Option Int} {e : PyExc}
    (hunbroken : ∀ count, env.send ≠ .broken count)
    (h : env.send.raises sockTimeout = some e) :
    (sockTimeout = some 0 ∧ e = .blockingIOError) ∨
      (sockTimeout ≠ some 0 ∧ e = .timeoutError) := by
  cases hsend : env.send with
  | sent =>
      rw [hsend] at h
      contradiction
  | broken count => exact absurd hsend (hunbroken count)
  | stalled count =>
      rw [hsend] at h
      cases hs : sockTimeout with
      | none =>
          rw [hs] at h
          contradiction
      | some t =>
          rw [hs] at h
          simp only [SendOutcome.raises] at h
          by_cases ht : t = 0
          · rw [if_pos ht] at h
            exact Or.inl ⟨by rw [ht], (Option.some.inj h).symm⟩
          · rw [if_neg ht] at h
            exact Or.inr ⟨fun e => ht (Option.some.inj e), (Option.some.inj h).symm⟩

/-- **When one request keeps a healthy worker.** -/
theorem dropping_infer_iff {limit : Nat} {taken : Bytes} {env : ExchangeEnv}
    {payload : Bytes} {shape : List Json} {generation timeout : Int} {w : NativeWorker}
    (hw : Healthy limit taken env generation w) (hdone : AtBoundary limit taken)
    (ht : 0 ≤ timeout) :
    dropping (w.infer env payload shape generation timeout).1 = false ↔
      Fits env payload shape generation timeout w := by
  have herror : ∀ e, (NativeWorker.exchange env
      (NativeWorker.inferHeader w.requests shape generation) payload
      ⟨w.requests, generation⟩ timeout w.takeId).1 = .error (exchangeRaise env.text e) →
      (w.infer env payload shape generation timeout).1 =
        .error (exchangeRaise env.text e) :=
    fun e => dropping_infer_error
  unfold Fits
  cases hmsg : sendMessage (NativeWorker.inferHeader w.requests shape generation)
      payload with
  | error e =>
      -- the request does not fit: nothing is written, and the worker is dropped
      have hx := herror .valueError (by
        simp [NativeWorker.exchange, NativeWorker.tracedExchange, hw.alive, hmsg,
          sendMessage_error hmsg])
      rw [hx]
      simp [Except.toBool]
  | ok bytes =>
      have hsock : w.takeId.sockTimeout = w.sockTimeout := rfl
      cases hsend : env.send.raises w.sockTimeout with
      | some e =>
          have hx := herror e (by
            simp [NativeWorker.exchange, NativeWorker.tracedExchange, hw.alive, hmsg, hsock,
              hsend])
          rw [hx]
          rcases raises_of_stalled hw.unbroken hsend with ⟨hzero, rfl⟩ | ⟨hzero, rfl⟩
          · simp [hzero]
          · simp [hzero, Except.toBool]
      | none =>
          obtain ⟨frames, hstream⟩ := hw.at_boundary hdone
          have hlate : ¬timeout < 0 := Int.not_lt.mpr ht
          rcases recvMessage_stream hstream with ⟨f, -, hrecv⟩ | hrecv
          · -- the next frame is there
            have hready : replyReady env generation w = true := by
              simp only [replyReady, hw.parser, hrecv]
            have hx : ∃ sources, (NativeWorker.exchange env
                (NativeWorker.inferHeader w.requests shape generation) payload
                ⟨w.requests, generation⟩ timeout w.takeId).1 =
                .ok ⟨f.header, f.payload, sources⟩ := by
              refine ⟨((w.takeId.answered env ⟨w.requests, generation⟩).channel.unread.take
                f.bytes.length).map Prod.snd, ?_⟩
              simp only [heard] at hrecv
              simp only [NativeWorker.exchange, NativeWorker.tracedExchange,
                NativeWorker.receive, hw.alive, hmsg, hsock, hsend, hlate, hw.parser, hrecv,
                Bool.not_true, Bool.false_eq_true, if_false]
            obtain ⟨sources, hx⟩ := hx
            refine iff_of_true (dropping_infer_harmless hx f.harmless)
              ⟨by simp [Except.toBool], ?_⟩
            exact Or.inl hready
          · -- the read has to wait for the rest
            have hnot : replyReady env generation w = false := by
              simp only [replyReady, hw.parser, hrecv]
            have hx := herror (env.ending.raises timeout) (by
              simp only [heard] at hrecv
              simp only [NativeWorker.exchange, NativeWorker.tracedExchange,
                NativeWorker.receive, hw.alive, hmsg, hsock, hsend, hlate, hw.parser,
                Bool.not_true, Bool.false_eq_true, if_false]
              rw [hrecv])
            rw [hx, hw.ending, hnot]
            by_cases hzero : timeout = 0
            · simp [StreamEnd.raises, hzero]
            · have hpos : 0 < timeout := by omega
              simp [StreamEnd.raises, hzero, hpos, Except.toBool]

/-! ## One request to the supervisor -/

/-- With a live and loaded worker, a request keeps it and records nothing, or it
drops it. -/
theorem workerInfer_keeps_iff {env : InferEnv} {payload : Bytes} {shape : List Json}
    {timeout : Int} {s : Supervisor} {child : Child} (hw : s.worker = some child)
    (hl : child.native.loaded = true) (halive : env.alive = true) :
    ((workerInfer env payload shape timeout s).2.resident = s.resident ∧
      (workerInfer env payload shape timeout s).2.registry = s.registry) ↔
      dropping (child.native.infer env.exchange payload shape child.native.generation
        timeout).1 = false := by
  have hdropping : dropping (child.native.infer env.exchange payload shape
      child.native.generation timeout).1 =
      (inferFailure env payload shape timeout s).isSome := by
    unfold inferFailure dropping
    simp only [hw, hl, halive, Bool.not_true, Bool.false_eq_true, if_false]
    cases (child.native.infer env.exchange payload shape child.native.generation
      timeout).1 with
    | ok served => rfl
    | error e =>
        cases e with
        | builtin e => rfl
        | worker e => by_cases hd : dropsWorker e.code = true <;> simp [hd]
  have hresident : s.resident = some child.loadedKey := by
    simp [Supervisor.resident, hw, hl]
  rw [hdropping]
  rcases workerInfer_spec env payload shape timeout s with
    ⟨hnone, hkept, hregistry, -⟩ | ⟨reason, hsome, -, hworker, -⟩
  · rw [hnone]
    exact iff_of_true ⟨hkept, hregistry⟩ rfl
  · rw [hsome]
    refine iff_of_false ?_ (by simp)
    rintro ⟨hkept, -⟩
    rw [hresident, Supervisor.resident, hworker] at hkept
    contradiction

/-! ## Runs of requests -/

/-- One call of {lit}`worker_infer`.  The frontend passes the rest of the deadline
as the budget, and never less than zero. -/
structure Request where
  env : InferEnv
  payload : Bytes
  shape : List Json
  budget : Int
  budget_nonneg : 0 ≤ budget

/-- Whether the request gets onto the socket, so that its reply is read. -/
def Request.reads (q : Request) (w : NativeWorker) : Bool :=
  q.env.exchange.alive &&
    (sendMessage (NativeWorker.inferHeader w.requests q.shape w.generation)
      q.payload).toBool &&
    (q.env.exchange.send.raises w.sockTimeout).isNone

/-- The bytes the request takes off the socket. -/
def Request.takes (q : Request) (w : NativeWorker) : Bytes :=
  if q.reads w then
    let bytes := heard q.env.exchange w.generation w
    bytes.take (recvMessage q.env.exchange.recursionLimit
      (q.env.exchange.ending.raises q.budget) bytes).used
  else []

/-- The supervisor with, as ghost data, the bytes taken off the worker's socket. -/
structure Session where
  supervisor : Supervisor
  taken : Bytes

/-- One request. -/
def Session.request (s : Session) (q : Request) : Session where
  supervisor := (workerInfer q.env q.payload q.shape q.budget s.supervisor).2
  taken :=
    match s.supervisor.worker with
    | none => s.taken
    | some child => s.taken ++ q.takes child.native

/-- Runs of requests. -/
def requests : Machine Session Request Empty where
  step s q := some (s.request q, [])

/-- The worker is there, loaded with the artifact of the key, and the registry is
{lit}`r`. -/
def InPlace (key : PyStr) (r : Registry) (s : Session) : Prop :=
  s.supervisor.resident = some key ∧ s.supervisor.registry = r

/-- The resident child is healthy during the request. -/
def HealthyAt (limit : Nat) (s : Session) (q : Request) : Prop :=
  q.env.alive = true ∧ ∀ child, s.supervisor.worker = some child →
    Healthy limit s.taken q.env.exchange child.native.generation child.native

/-- The request is one that keeps the resident worker. -/
def FitsAt (s : Session) (q : Request) : Prop :=
  ∀ child, s.supervisor.worker = some child →
    Fits q.env.exchange q.payload q.shape child.native.generation q.budget child.native

/-- A resident key comes from a loaded child. -/
theorem exists_child_of_resident {s : Supervisor} {key : PyStr}
    (h : s.resident = some key) :
    ∃ child, s.worker = some child ∧ child.native.loaded = true := by
  obtain ⟨child, hw, hchild⟩ := Option.bind_eq_some_iff.mp h
  refine ⟨child, hw, ?_⟩
  by_contra hl
  rw [if_neg hl] at hchild
  contradiction

/-- **When one request keeps the healthy worker**, its socket being at a frame
boundary. -/
theorem request_serving_iff {limit : Nat} {key : PyStr} {r : Registry} {s : Session}
    {q : Request} (hs : InPlace key r s) (hq : HealthyAt limit s q)
    (hdone : AtBoundary limit s.taken) : InPlace key r (s.request q) ↔ FitsAt s q := by
  obtain ⟨child, hw, hl⟩ := exists_child_of_resident hs.1
  have hkeeps : ((workerInfer q.env q.payload q.shape q.budget s.supervisor).2.resident =
        s.supervisor.resident ∧ _) ↔ _ :=
    workerInfer_keeps_iff hw hl hq.1
  have hfits : _ ↔ Fits q.env.exchange q.payload q.shape child.native.generation
      q.budget child.native :=
    dropping_infer_iff (hq.2 child hw) hdone q.budget_nonneg
  rw [hs.1, hs.2] at hkeeps
  have hat : FitsAt s q ↔ Fits q.env.exchange q.payload q.shape
      child.native.generation q.budget child.native := by
    constructor
    · exact fun h => h child hw
    · intro h c hc
      rw [hw] at hc
      exact Option.some.inj hc ▸ h
  rw [hat, ← hfits, ← hkeeps]
  exact Iff.rfl

/-- A request that does not fit drops the healthy worker and records the reason. -/
theorem request_drops {limit : Nat} {key : PyStr} {r : Registry} {s : Session}
    {q : Request} (hs : InPlace key r s) (hq : HealthyAt limit s q)
    (hdone : AtBoundary limit s.taken) (hunfit : ¬FitsAt s q) :
    (s.request q).supervisor.worker = none ∧
      ∃ reason, (s.request q).supervisor.registry =
        r.record (q.env.drop.record reason s.supervisor) := by
  rcases workerInfer_spec q.env q.payload q.shape q.budget s.supervisor with
    ⟨-, hkept, hregistry, -⟩ | ⟨reason, -, -, hworker, hregistry⟩
  · have hserving : InPlace key r (s.request q) :=
      ⟨hkept.trans hs.1, hregistry.trans hs.2⟩
    exact absurd ((request_serving_iff hs hq hdone).mp hserving) hunfit
  · rw [hs.2] at hregistry
    exact ⟨hworker, reason, hregistry⟩

/-- **A client's requests and the healthy worker.**  In every run of requests to a
healthy worker: if each request fits and finds the socket at a frame boundary, the
worker stays, loaded as it was, and nothing is recorded; and wherever the worker is
in place and the socket at a frame boundary, the next request keeps it exactly when
it fits. -/
theorem requests_keep_worker {limit : Nat} {key : PyStr} {r : Registry}
    {qs : List Request} {s : Session} (hs : InPlace key r s)
    (hhealthy : requests.Along (HealthyAt limit) qs s) :
    (requests.Along (fun s q => AtBoundary limit s.taken ∧ FitsAt s q) qs s →
      requests.Throughout (InPlace key r) qs s) ∧
    ∀ t q, InPlace key r t → HealthyAt limit t q → AtBoundary limit t.taken →
      (InPlace key r (t.request q) ↔ FitsAt t q) := by
  refine ⟨fun hfits => ?_, fun t q ht hq hdone => request_serving_iff ht hq hdone⟩
  induction qs generalizing s with
  | nil => exact hs
  | cons q qs ih =>
      refine ⟨hs, fun s' es hstep => ?_⟩
      have hs' : InPlace key r s' := by
        obtain ⟨rfl, -⟩ := Prod.mk.inj (Option.some.inj hstep)
        exact (request_serving_iff hs hhealthy.1 hfits.1.1).mpr hfits.1.2
      exact ih hs' (hhealthy.2 s' es hstep) (hfits.2 s' es hstep)

/-! ## A request that keeps the worker, and one that does not -/

/-- A session right after the model was loaded. -/
def loadedSession : Session where
  supervisor :=
    { worker := some ⟨1, loadedNative 1, py "a"⟩
      workerGeneration := 1
      workerCompileKey := some (py "a") }
  taken := []

/-- A request that the child answers in time. -/
def answeredRequest : Request where
  env := answeredInfer
  payload := [0, 0, 0, 0]
  shape := [.int 1]
  budget := 10000000
  budget_nonneg := by decide

/-- The child that answers in time is healthy. -/
theorem answeredRequest_healthy : HealthyAt 1000 loadedSession answeredRequest := by
  obtain ⟨rep, out, ⟨htype, hcode⟩, ⟨hlen, -⟩, hrecv⟩ := firstReply_message
  refine ⟨rfl, fun child hchild => ?_⟩
  obtain rfl := Option.some.inj hchild
  have hheard : heard answeredInfer.exchange 1 (loadedNative 1) = firstReply :=
    heard_of_reply rfl rfl (by decide +kernel)
  have hharmless : harmless rep out = true := by
    simp [harmless, htype, hcode, hlen]
  refine ⟨rfl, ?_, rfl, rfl, [⟨firstReply, rep, out, hrecv, hharmless⟩], ?_⟩
  · intro torn h
    cases h
  · rw [show loadedSession.taken = [] from rfl, List.nil_append]
    change heard answeredInfer.exchange 1 (loadedNative 1) <+: _
    rw [hheard, streamOf_cons]
    exact List.prefix_append _ _

/-- The answered request keeps the worker. -/
theorem answered_request_kept :
    requests.Throughout (InPlace (py "a") {}) [answeredRequest] loadedSession := by
  have hs : InPlace (py "a") {} loadedSession := ⟨rfl, rfl⟩
  have hhealthy : requests.Along (HealthyAt 1000) [answeredRequest] loadedSession :=
    ⟨answeredRequest_healthy, fun _ _ _ => trivial⟩
  refine (requests_keep_worker hs hhealthy).1 ⟨⟨⟨[], rfl⟩, ?_⟩, fun _ _ _ => trivial⟩
  intro child hchild
  obtain rfl := Option.some.inj hchild
  refine ⟨?_, Or.inr (by decide)⟩
  change (sendMessage (NativeWorker.inferHeader 2 [.int 1] 1) [0, 0, 0, 0]).toBool = true
  decide +kernel

/-- A shape of 5500 ones, as text without blanks. -/
def longHeaderText : Bytes :=
  (py "\x7b\"shape\":[" ++ (List.replicate 5499 (py "1,")).flatten ++
    py "1],\"dtype\":\"float32\"\x7d").map UInt8.ofNat

/-- A shape of 5500 ones, for one value. -/
def longShape : List Json :=
  List.replicate 5500 (.int 1)

/-- The header of the request with the long shape. -/
def longHeader : Json :=
  .obj [(py "shape", .arr longShape), (py "dtype", .str (py "float32"))]

/-- Whether a header text is accepted and parses to this value. -/
def parsesTo (raw : Bytes) (j : Json) : Bool :=
  match Frontend.parseHeader 1000 raw with
  | .ok k => raw.length ≤ maxHeaderBytes && k == j
  | .error _ => false

/-- The request with the long shape, to a child that is alive and quiet. -/
def longRequest : Request where
  env := ⟨true, hearing [], ⟨true, none, ⟨false, 0, []⟩, none⟩⟩
  payload := [0, 0, 0, 0]
  shape := longShape
  budget := 10000000
  budget_nonneg := by decide

/-- The child that says nothing is healthy. -/
theorem longRequest_healthy : HealthyAt 1000 loadedSession longRequest := by
  refine ⟨rfl, fun child hchild => ?_⟩
  obtain rfl := Option.some.inj hchild
  refine ⟨rfl, ?_, rfl, rfl, [], List.prefix_rfl⟩
  intro torn h
  cases h

/-- A request is written with three bytes for each of its dimensions. -/
theorem encodeHeader_infer_length (requestId : Nat) (shape : List Json) (generation : Int)
    (payload : Bytes) :
    3 * shape.length ≤ (encodeHeader (wireHeader
      (NativeWorker.inferHeader requestId shape generation) payload)).length := by
  have hheader : wireHeader (NativeWorker.inferHeader requestId shape generation) payload =
      NativeWorker.inferHeader requestId shape generation ++
        [(py "protocol_version", .int protocolVersion),
          (py "payload_length", .int payload.length)] := rfl
  have hspec : (py "tensor_spec", .obj
      [(py "shape", .arr shape), (py "dtype", .str (py "float32"))]) ∈
        wireHeader (NativeWorker.inferHeader requestId shape generation) payload := by
    rw [hheader]
    simp [NativeWorker.inferHeader]
  have hshape : (py "shape", .arr shape) ∈
      [(py "shape", .arr shape), (py "dtype", Json.str (py "float32"))] := List.mem_cons_self
  have hinner := dumps_length_le_of_mem hshape
  have houter := dumps_length_le_of_mem hspec
  have harray := dumps_arr_length_ge shape
  dsimp only at hinner houter
  rw [encodeHeader, List.length_map]
  omega

/-- A request of so many dimensions does not fit, whatever they are. -/
theorem sendMessage_infer_long {shape : List Json} (h : maxHeaderBytes < 3 * shape.length)
    (requestId : Nat) (generation : Int) (payload : Bytes) :
    (sendMessage (NativeWorker.inferHeader requestId shape generation) payload).toBool =
      false := by
  have hlong := encodeHeader_infer_length requestId shape generation payload
  unfold sendMessage
  split_ifs
  · rfl
  · rfl
  · rfl
  · rfl
  · rfl
  · omega

/-- The request with the long shape does not fit. -/
theorem longRequest_unfit : ¬FitsAt loadedSession longRequest := by
  intro h
  have hsend : (sendMessage (NativeWorker.inferHeader 2 longShape 1)
      [0, 0, 0, 0]).toBool = true := (h _ rfl).1
  have hdims : maxHeaderBytes < 3 * longShape.length := by
    rw [longShape, List.length_replicate]
    decide
  rw [sendMessage_infer_long hdims] at hsend
  contradiction

set_option maxRecDepth 20000 in
/-- A header of 11 kilobytes passes every check of the frontend, but the shape is
written again with a blank after each comma, and the request no longer fits: the
healthy worker is dropped and an inhibition is recorded. -/
theorem long_shape_drops :
    parsesTo longHeaderText longHeader = true ∧
      Frontend.tensorShape longHeader longRequest.payload = some longShape ∧
      InPlace (py "a") {} loadedSession ∧ HealthyAt 1000 loadedSession longRequest ∧
      AtBoundary 1000 loadedSession.taken ∧
      (loadedSession.request longRequest).supervisor.worker = none ∧
      (loadedSession.request longRequest).supervisor.registry.state.inhibition.isSome := by
  have hs : InPlace (py "a") {} loadedSession := ⟨rfl, rfl⟩
  have hdone : AtBoundary 1000 loadedSession.taken := ⟨[], rfl⟩
  refine ⟨by decide +kernel, by decide +kernel, hs, longRequest_healthy, hdone, ?_⟩
  obtain ⟨hworker, reason, hregistry⟩ :=
    request_drops hs longRequest_healthy hdone longRequest_unfit
  refine ⟨hworker, ?_⟩
  have href : dropRef none loadedSession.supervisor = .ok (py "a") := rfl
  rw [hregistry, Registry.record_inhibition, DropEnv.record]
  simp only [longRequest, href]
  rfl

end System
end FrigateXdna
