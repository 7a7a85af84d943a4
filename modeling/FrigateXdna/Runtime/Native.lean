import FrigateXdna.Library.ReplyChannel
import FrigateXdna.Runtime.Ipc

/-!
# The resident native worker as the supervisor sees it

A {lit}`NativeWorker` owns one end of a socket pair.  Everything the child and
the operating system decide during one call is the {lit}`ExchangeEnv` of that
call: whether the child is alive, how far the request gets onto the socket, what
the child writes before the read is over, and how a read that wants more ends.

Each byte on the socket carries, as ghost data, the request the child wrote it
for.  A successful call reports the requests whose bytes it consumed.

Main results:

- Theorem {lit}`NativeWorker.exchange_spec`: everything one exchange can do to
  the worker's state and to the socket.
- Theorem {lit}`NativeWorker.exchange_sources_iff`: a reply is the child's answer
  to the request of its exchange exactly when the socket was quiet before.
-/

namespace FrigateXdna
namespace Runtime

open Python Library

/-! ## Errors -/

/-- {lit}`WorkerError`; the code may be any truthy JSON value of a reply. -/
structure WorkerError where
  code : Json
  message : Json

/-- What a worker call raises: a {lit}`WorkerError`, or a built-in exception
that {lit}`_exchange` does not convert. -/
inductive WorkerRaise
  | worker (e : WorkerError)
  | builtin (e : PyExc)

/-- A {lit}`WorkerError` with a constant code. -/
def workerError (code message : PyStr) : WorkerRaise :=
  .worker { code := .str code, message := .str message }

/-! ## The environment of one exchange -/

/-- A request on the wire: its {lit}`request_id` and {lit}`worker_generation`. -/
structure RequestTag where
  requestId : Nat
  generation : Int
deriving DecidableEq, Repr

/-- How far {lit}`sendall` gets: the message is sent, or the send fails after
{lit}`count` of its bytes. -/
inductive SendOutcome
  | sent
  | stalled (count : Nat)
  | broken (count : Nat)
deriving DecidableEq, Repr

/-- What a read meets when it wants more bytes than arrive. -/
inductive StreamEnd
  | expired
  | closed
  | reset
deriving DecidableEq, Repr

/-- Everything outside the process during one exchange.  {lit}`text` is the text
of the exception that ends it, or of the timeout. -/
structure ExchangeEnv where
  alive : Bool
  send : SendOutcome
  writes : List (ServerWrite UInt8)
  ending : StreamEnd
  recursionLimit : Nat
  text : PyStr

/-- The exception of a failed send.  A socket without a timeout waits until the
child takes the bytes; one with timeout zero does not wait at all. -/
def SendOutcome.raises (sockTimeout : Option Int) : SendOutcome → Option PyExc
  | .sent => none
  | .broken _ => some .connectionError
  | .stalled _ =>
      match sockTimeout with
      | none => none
      | some t => if t = 0 then some .blockingIOError else some .timeoutError

/-- Whether the child takes a byte of what is sent. -/
def SendOutcome.Reaches (sockTimeout : Option Int) : SendOutcome → Prop
  | .sent => True
  | .stalled count => 0 < count ∨ sockTimeout = none
  | .broken count => 0 < count

/-- What a failed send wrote of a frame, which is never all of it. -/
def SendOutcome.cut (frame : Bytes) : SendOutcome → Bytes
  | .sent => frame
  | .stalled count => frame.take (min count (frame.length - 1))
  | .broken count => frame.take (min count (frame.length - 1))

/-- The child takes a message whose send does not fail. -/
theorem SendOutcome.reaches_of_raises {send : SendOutcome} {sockTimeout : Option Int}
    (h : send.raises sockTimeout = none) : send.Reaches sockTimeout := by
  cases send with
  | sent => trivial
  | broken count => contradiction
  | stalled count =>
      cases sockTimeout with
      | none => exact Or.inr rfl
      | some t =>
          simp only [SendOutcome.raises] at h
          split at h <;> contradiction

/-- The exception of a read that finds too few bytes.  With timeout zero the
socket is non-blocking. -/
def StreamEnd.raises (timeout : Int) : StreamEnd → PyExc
  | .expired => if timeout = 0 then .blockingIOError else .timeoutError
  | .closed => .connectionError
  | .reset => .connectionError

/-- The {lit}`except` clauses of {lit}`_exchange`. -/
def exchangeRaise (text : PyStr) (e : PyExc) : WorkerRaise :=
  if e = .timeoutError then
    workerError (py "TIMEOUT") (py "worker IPC timed out after " ++ text ++ py "s")
  else if e.isOSError || e == .valueError then
    workerError (py "WORKER_IO") (py "worker IPC failed: " ++ text)
  else
    .builtin e

/-! ## The worker -/

/-- {lit}`NativeWorker`.  {lit}`requests` is the next value of the request
counter, {lit}`sockTimeout` the socket timeout left by the last receive; times
are whole nanoseconds. -/
structure NativeWorker where
  generation : Int
  requests : Nat
  loaded : Bool
  sockTimeout : Option Int
  channel : ReplyChannel RequestTag UInt8

/-- The worker right after {lit}`spawn`. -/
def NativeWorker.spawned : NativeWorker where
  generation := 0
  requests := 1
  loaded := false
  sockTimeout := none
  channel := .empty

/-- {lit}`RESULT_BYTES`. -/
def resultBytes : Nat := 20 * 6 * 4

/-- {lit}`LOAD_TIMEOUT_S`. -/
def loadTimeout : Int := 25000000000

/-- A received reply, with the requests its bytes were written for. -/
structure Reply where
  header : Fields
  payload : Bytes
  sources : List RequestTag

/-- What a successful call returns, with the request it made and the requests
whose reply bytes it consumed. -/
structure Served (α : Type*) where
  value : α
  request : RequestTag
  sources : List RequestTag

/-- The reply the caller consumed was written for its own request. -/
def Served.Paired {α : Type*} (s : Served α) : Prop :=
  ∀ r ∈ s.sources, r = s.request

instance {α : Type*} (s : Served α) : Decidable s.Paired :=
  inferInstanceAs (Decidable (∀ r ∈ s.sources, r = s.request))

namespace NativeWorker

/-- {lit}`next(self._requests)`. -/
def takeId (w : NativeWorker) : NativeWorker :=
  { w with requests := w.requests + 1 }

/-- The socket after a failed send wrote these bytes: a torn request is still a
request the child may answer. -/
def afterFailedSend (written : Bytes) (tag : RequestTag) (w : NativeWorker) :
    NativeWorker :=
  if written.isEmpty then w else { w with channel := w.channel.send tag }

/-- The socket when the read starts to look at it: the request is out and the
child has written whatever it writes in time. -/
def answered (env : ExchangeEnv) (tag : RequestTag) (w : NativeWorker) :
    NativeWorker :=
  { w with channel := (w.channel.send tag).writes env.writes }

/-- The socket after a receive took {lit}`used` bytes off it. -/
def consumed (timeout : Int) (used : Nat) (w : NativeWorker) : NativeWorker :=
  { w with sockTimeout := some timeout, channel := w.channel.drop used }

/-- The receive of {lit}`_exchange`.  A negative timeout is refused by
{lit}`settimeout`. -/
def receive (env : ExchangeEnv) (timeout : Int) (w : NativeWorker) :
    Except WorkerRaise Reply × NativeWorker :=
  if timeout < 0 then
    (.error (exchangeRaise env.text .valueError), w)
  else
    let heard := w.channel.unread
    match recvMessage env.recursionLimit (env.ending.raises timeout)
        (heard.map Prod.fst) with
    | .failed e used => (.error (exchangeRaise env.text e), w.consumed timeout used)
    | .message rep out used =>
        (.ok ⟨rep, out, (heard.take used).map Prod.snd⟩, w.consumed timeout used)

/-- {lit}`_exchange`, with the bytes it writes to the socket. -/
def tracedExchange (env : ExchangeEnv) (header : Fields) (payload : Bytes)
    (tag : RequestTag) (timeout : Int) (w : NativeWorker) :
    (Except WorkerRaise Reply × NativeWorker) × Bytes :=
  if !env.alive then
    ((.error (workerError (py "WORKER_DEAD") (py "worker child exited")), w), [])
  else
    match sendMessage header payload with
    | .error e => ((.error (exchangeRaise env.text e), w), [])
    | .ok frame =>
        match env.send.raises w.sockTimeout with
        | some e =>
            ((.error (exchangeRaise env.text e),
              w.afterFailedSend (env.send.cut frame) tag), env.send.cut frame)
        | none => ((w.answered env tag).receive env timeout, frame)

/-- {lit}`_exchange`. -/
def exchange (env : ExchangeEnv) (header : Fields) (payload : Bytes)
    (tag : RequestTag) (timeout : Int) (w : NativeWorker) :
    Except WorkerRaise Reply × NativeWorker :=
  (w.tracedExchange env header payload tag timeout).1

/-- {lit}`rep.get("error_code") or default`. -/
def orDefault (value : Json) (default : PyStr) : Json :=
  if value.truthy then value else .str default

/-- The error a refusing reply is turned into. -/
def refusal (rep : Fields) (code message : PyStr) : WorkerRaise :=
  .worker
    { code := orDefault (Fields.get rep (py "error_code")) code
      message := orDefault (Fields.get rep (py "error_message")) message }

/-- The LOAD header. -/
def loadHeader (requestId : Nat) (artifactPath : PyStr) (generation : Int)
    (servingDigest : PyStr) (classCount : Int) : Fields :=
  [(py "message_type", .str (py "LOAD")),
    (py "request_id", .int requestId),
    (py "worker_generation", .int generation),
    (py "artifact_path", .str artifactPath),
    (py "serving_digest", .str servingDigest),
    (py "class_count", .int classCount)]

/-- {lit}`load` once its exchange is over. -/
def loadEnds (generation : Int) (tag : RequestTag) :
    Except WorkerRaise Reply × NativeWorker →
      Except WorkerRaise (Served Unit) × NativeWorker
  | (.error e, w) => (.error e, w)
  | (.ok rep, w) =>
      if !isType rep.header (py "STATUS") ||
          (Fields.get rep.header (py "error_code")).truthy then
        (.error (refusal rep.header (py "LOAD_REFUSED") (py "LOAD refused")), w)
      else
        (.ok ⟨(), tag, rep.sources⟩, { w with generation := generation, loaded := true })

/-- {lit}`load`, with the bytes it writes to the socket. -/
def tracedLoad (env : ExchangeEnv) (artifactPath : PyStr) (generation : Int)
    (servingDigest : PyStr) (classCount : Int) (timeout : Int) (w : NativeWorker) :
    (Except WorkerRaise (Served Unit) × NativeWorker) × Bytes :=
  if classCount ≤ 0 then
    ((.error (workerError (py "INVALID_ARGS")
      (py "LOAD requires inspected class_count")), w), [])
  else
    let tag : RequestTag := ⟨w.requests, generation⟩
    let r := w.takeId.tracedExchange env
      (loadHeader w.requests artifactPath generation servingDigest classCount) [] tag
      timeout
    (loadEnds generation tag r.1, r.2)

/-- {lit}`load`. -/
def load (env : ExchangeEnv) (artifactPath : PyStr) (generation : Int)
    (servingDigest : PyStr) (classCount : Int) (timeout : Int)
    (w : NativeWorker) : Except WorkerRaise (Served Unit) × NativeWorker :=
  (w.tracedLoad env artifactPath generation servingDigest classCount timeout).1

/-- The INFER header. -/
def inferHeader (requestId : Nat) (shape : List Json) (generation : Int) : Fields :=
  [(py "message_type", .str (py "INFER")),
    (py "request_id", .int requestId),
    (py "worker_generation", .int generation),
    (py "tensor_spec", .obj
      [(py "shape", .arr shape), (py "dtype", .str (py "float32"))])]

/-- {lit}`infer`. -/
def infer (env : ExchangeEnv) (payload : Bytes) (shape : List Json)
    (generation : Int) (timeout : Int) (w : NativeWorker) :
    Except WorkerRaise (Served Bytes) × NativeWorker :=
  let tag : RequestTag := ⟨w.requests, generation⟩
  match exchange env (inferHeader w.requests shape generation) payload tag timeout
      w.takeId with
  | (.error e, w') => (.error e, w')
  | (.ok rep, w') =>
      if !isType rep.header (py "RESULT") ||
          (Fields.get rep.header (py "error_code")).truthy then
        (.error (refusal rep.header (py "INFER_REFUSED") (py "INFER refused")), w')
      else if rep.payload.length ≠ resultBytes then
        (.error (workerError (py "INFER_SHORT")
          (py "result " ++ natDigits rep.payload.length ++ py " bytes, want " ++
            natDigits resultBytes)), w')
      else
        (.ok ⟨rep.payload, tag, rep.sources⟩, w')

/-! ## What one exchange can do -/

@[simp]
theorem takeId_requests (w : NativeWorker) : w.takeId.requests = w.requests + 1 :=
  rfl

@[simp]
theorem takeId_channel (w : NativeWorker) : w.takeId.channel = w.channel :=
  rfl

/-- An exchange leaves the counter, the generation and the loaded flag alone,
and puts nothing but its own request on the socket. -/
structure Kept (tag : RequestTag) (w w' : NativeWorker) : Prop where
  requests : w'.requests = w.requests
  generation : w'.generation = w.generation
  loaded : w'.loaded = w.loaded
  owners : ∀ r ∈ w'.channel.owners, r ∈ w.channel.owners ∨ r = tag

/-- Nothing happened. -/
theorem Kept.refl (tag : RequestTag) (w : NativeWorker) : Kept tag w w :=
  ⟨rfl, rfl, rfl, fun _ h => Or.inl h⟩

/-- A failed send puts at most its own request on the socket. -/
theorem afterFailedSend_kept (written : Bytes) (tag : RequestTag)
    (w : NativeWorker) : Kept tag w (w.afterFailedSend written tag) := by
  unfold afterFailedSend
  split
  · exact Kept.refl tag w
  · refine ⟨rfl, rfl, rfl, ?_⟩
    intro r hr
    simpa using hr

/-- The child only writes for requests that are on the socket. -/
theorem answered_kept (env : ExchangeEnv) (tag : RequestTag) (w : NativeWorker) :
    Kept tag w (w.answered env tag) := by
  refine ⟨rfl, rfl, rfl, ?_⟩
  intro r hr
  simpa using ReplyChannel.mem_owners_of_writes hr

/-- Reading brings nothing new onto the socket. -/
theorem Kept.consumed {tag : RequestTag} {w w' : NativeWorker} (h : Kept tag w w')
    (timeout : Int) (used : Nat) : Kept tag w (w'.consumed timeout used) :=
  ⟨h.requests, h.generation, h.loaded,
    fun r hr => h.owners r (ReplyChannel.mem_owners_of_drop hr)⟩

/-- Everything one exchange can do.  A reply consists of a nonempty batch of the
bytes on the socket after the request went out. -/
theorem exchange_spec (env : ExchangeEnv) (header : Fields) (payload : Bytes)
    (tag : RequestTag) (timeout : Int) (w : NativeWorker) :
    Kept tag w (exchange env header payload tag timeout w).2 ∧
      ∀ rep, (exchange env header payload tag timeout w).1 = .ok rep →
        ∃ n, 0 < n ∧ n ≤ (w.answered env tag).channel.unread.length ∧
          rep.sources = ((w.answered env tag).channel.unread.take n).map Prod.snd := by
  unfold exchange tracedExchange
  split
  · exact ⟨Kept.refl tag w, by simp⟩
  · split
    · exact ⟨Kept.refl tag w, by simp⟩
    · split
      · exact ⟨afterFailedSend_kept _ tag w, by simp⟩
      · unfold receive
        dsimp only
        split
        · exact ⟨answered_kept env tag w, by simp⟩
        · split
          · exact ⟨(answered_kept env tag w).consumed _ _, by simp⟩
          · rename_i rep out used hrecv
            obtain ⟨hpos, hle⟩ := recvMessage_used_pos hrecv
            refine ⟨(answered_kept env tag w).consumed _ _, ?_⟩
            intro r hr
            obtain rfl := Except.ok.inj hr
            exact ⟨used, hpos, by simpa using hle, rfl⟩

/-- An exchange that has a reply sent its whole request to a live child. -/
theorem exchange_ok_sent {env : ExchangeEnv} {header : Fields} {payload : Bytes}
    {tag : RequestTag} {timeout : Int} {w : NativeWorker} {rep : Reply}
    (h : (exchange env header payload tag timeout w).1 = .ok rep) :
    env.alive = true ∧ (∃ frame, sendMessage header payload = .ok frame) ∧
      env.send.raises w.sockTimeout = none := by
  unfold exchange tracedExchange at h
  split at h
  · contradiction
  · rename_i halive
    split at h
    · contradiction
    · rename_i frame hframe
      split at h
      · contradiction
      · rename_i hraises
        exact ⟨by simpa using halive, ⟨frame, hframe⟩, hraises⟩

/-- A reply was written for the request of its exchange exactly when nothing of
an earlier request was on the socket before. -/
theorem exchange_sources_iff {env : ExchangeEnv} {header : Fields} {payload : Bytes}
    {tag : RequestTag} {timeout : Int} {w : NativeWorker} {rep : Reply}
    (hfresh : tag ∉ w.channel.owners)
    (h : (exchange env header payload tag timeout w).1 = .ok rep) :
    (∀ r ∈ rep.sources, r = tag) ↔ w.channel.owners = [] := by
  obtain ⟨n, hn, hle, hsources⟩ :=
    (exchange_spec env header payload tag timeout w).2 rep h
  rw [← ReplyChannel.read_owned_iff hfresh env.writes hn hle, hsources]
  simp only [List.forall_mem_map]
  exact Iff.rfl

/-! ## Two frequent exchanges -/

/-- The child answers the oldest request on an otherwise read socket with one
whole message: the exchange returns that message, whoever it was written for. -/
theorem exchange_of_reply {env : ExchangeEnv} {header : Fields} {payload bytes : Bytes}
    {tag r : RequestTag} {rest : List RequestTag} {timeout : Int} {w : NativeWorker}
    {frame : Bytes} {rep : Fields} {out : Bytes} (halive : env.alive = true)
    (hsend : env.send = .sent) (hwrites : env.writes = ReplyChannel.reply frame)
    (hmsg : sendMessage header payload = .ok bytes) (ht : 0 ≤ timeout)
    (hunread : w.channel.unread = []) (hpending : w.channel.pending ++ [tag] = r :: rest)
    (hrecv : ∀ starved, recvMessage env.recursionLimit starved frame =
      .message rep out frame.length) :
    exchange env header payload tag timeout w =
      (.ok ⟨rep, out, frame.map fun _ => r⟩,
        { w with sockTimeout := some timeout, channel := ⟨rest, []⟩ }) := by
  have hne : frame ≠ [] := by
    rintro rfl
    have := (recvMessage_used_pos (hrecv .timeoutError)).1
    simp at this
  have hsent : (w.channel.send tag).pending = r :: rest := hpending
  have hanswered : w.answered env tag =
      { w with channel := ⟨rest, frame.map fun b => (b, r)⟩ } := by
    simp only [answered, hwrites, ReplyChannel.writes_reply hsent hne]
    simp [ReplyChannel.send, hunread]
  have hheard : (frame.map fun b => (b, r)).map Prod.fst = frame := by
    simp [Function.comp_def]
  unfold exchange tracedExchange receive
  simp only [halive, Bool.not_true, Bool.false_eq_true, if_false, hmsg, hsend,
    SendOutcome.raises, if_neg (Int.not_lt.mpr ht), hanswered, hheard, hrecv]
  simp [consumed, ReplyChannel.drop, Function.comp_def]

/-- A call that is not refused has a result. -/
theorem exists_of_toBool {ε α : Type*} {x : Except ε α} (h : x.toBool = true) :
    ∃ a, x = .ok a := by
  cases x with
  | ok a => exact ⟨a, rfl⟩
  | error e => simp [Except.toBool] at h

/-- Nothing arrives before the timeout: the exchange ends in {lit}`TIMEOUT` and
its request stays on the socket. -/
theorem exchange_of_silence {env : ExchangeEnv} {header : Fields}
    {payload bytes : Bytes} {tag : RequestTag} {timeout : Int} {w : NativeWorker}
    (halive : env.alive = true) (hsend : env.send = .sent) (hwrites : env.writes = [])
    (hending : env.ending = .expired)
    (hmsg : sendMessage header payload = .ok bytes) (ht : 0 < timeout)
    (hunread : w.channel.unread = []) :
    exchange env header payload tag timeout w =
      (.error (exchangeRaise env.text .timeoutError),
        { w with
          sockTimeout := some timeout
          channel := ⟨w.channel.pending ++ [tag], []⟩ }) := by
  have hrecv : ∀ starved, recvMessage env.recursionLimit starved [] =
      .failed starved 0 := fun _ => rfl
  have hexpired : env.ending.raises timeout = .timeoutError := by
    rw [hending]
    exact if_neg (by omega)
  unfold exchange tracedExchange receive
  simp only [halive, Bool.not_true, Bool.false_eq_true, if_false, hmsg, hsend,
    SendOutcome.raises, if_neg (Int.not_lt.mpr (Int.le_of_lt ht)), answered, hwrites,
    ReplyChannel.writes, List.foldl_nil, ReplyChannel.send, hunread, List.map_nil,
    hrecv, hexpired]
  simp [consumed, ReplyChannel.drop]

/-! ## What the two calls can do -/

/-- Everything on the socket belongs to a request that was already numbered. -/
def Fresh (w : NativeWorker) : Prop :=
  ∀ t ∈ w.channel.owners, t.requestId < w.requests

/-- The next request is new to the socket. -/
theorem Fresh.next_notMem {w : NativeWorker} (h : w.Fresh) (generation : Int) :
    (⟨w.requests, generation⟩ : RequestTag) ∉ w.channel.owners := by
  intro hmem
  exact Nat.lt_irrefl _ (h _ hmem)

/-- The request that takes the next number keeps the socket fresh. -/
theorem Kept.fresh {w w' : NativeWorker} {generation : Int}
    (hk : Kept ⟨w.requests, generation⟩ w.takeId w') (h : w.Fresh) : w'.Fresh := by
  intro t ht
  rw [hk.requests, takeId_requests]
  rcases hk.owners t ht with hold | rfl
  · exact Nat.lt_succ_of_lt (h t hold)
  · exact Nat.lt_succ_self _

/-- A load that has classes ends as its exchange does. -/
theorem load_of_pos (env : ExchangeEnv) (artifactPath : PyStr) (generation : Int)
    (servingDigest : PyStr) {classCount : Int} (hclasses : 0 < classCount) (timeout : Int)
    (w : NativeWorker) :
    load env artifactPath generation servingDigest classCount timeout w =
      loadEnds generation ⟨w.requests, generation⟩ (exchange env
        (loadHeader w.requests artifactPath generation servingDigest classCount) []
        ⟨w.requests, generation⟩ timeout w.takeId) := by
  unfold load tracedLoad
  rw [if_neg (Int.not_le.mpr hclasses)]
  rfl

/-- A load without classes makes no exchange. -/
theorem load_of_nonpos (env : ExchangeEnv) (artifactPath : PyStr) (generation : Int)
    (servingDigest : PyStr) {classCount : Int} (hclasses : classCount ≤ 0) (timeout : Int)
    (w : NativeWorker) :
    load env artifactPath generation servingDigest classCount timeout w =
      (.error (workerError (py "INVALID_ARGS")
        (py "LOAD requires inspected class_count")), w) := by
  unfold load tracedLoad
  rw [if_pos hclasses]

/-- The end of a load changes at most the generation and the loaded flag. -/
theorem loadEnds_worker (generation : Int) (tag : RequestTag)
    (r : Except WorkerRaise Reply × NativeWorker) :
    (loadEnds generation tag r).2.channel = r.2.channel ∧
      (loadEnds generation tag r).2.requests = r.2.requests := by
  obtain ⟨result, w⟩ := r
  cases result with
  | error e => exact ⟨rfl, rfl⟩
  | ok rep =>
      dsimp only [loadEnds]
      split <;> exact ⟨rfl, rfl⟩

/-- A load that is over well comes from a reply, and marks the worker as loaded. -/
theorem loadEnds_ok {generation : Int} {tag : RequestTag}
    {r : Except WorkerRaise Reply × NativeWorker} {s : Served Unit}
    (h : (loadEnds generation tag r).1 = .ok s) :
    ∃ rep, r.1 = .ok rep ∧ s = ⟨(), tag, rep.sources⟩ ∧
      (loadEnds generation tag r).2.loaded = true := by
  obtain ⟨result, w⟩ := r
  cases result with
  | error e => contradiction
  | ok rep =>
      dsimp only [loadEnds] at h ⊢
      split at h
      · contradiction
      · rename_i hok
        rw [if_neg hok]
        exact ⟨rep, rfl, (Except.ok.inj h).symm, rfl⟩

/-- A load changes the worker as its exchange does, apart from the generation
and the loaded flag. -/
theorem load_worker (env : ExchangeEnv) (artifactPath : PyStr) (generation : Int)
    (servingDigest : PyStr) (classCount timeout : Int) (w : NativeWorker) :
    (load env artifactPath generation servingDigest classCount timeout w).2 = w ∨
      ∃ a, Kept ⟨w.requests, generation⟩ w.takeId a ∧
        (load env artifactPath generation servingDigest classCount timeout w).2.channel
          = a.channel ∧
        (load env artifactPath generation servingDigest classCount timeout w).2.requests
          = a.requests := by
  by_cases hclasses : 0 < classCount
  · right
    rw [load_of_pos env artifactPath generation servingDigest hclasses timeout w]
    exact ⟨_, (exchange_spec env _ [] _ timeout w.takeId).1, loadEnds_worker _ _ _⟩
  · left
    rw [load_of_nonpos env artifactPath generation servingDigest (Int.not_lt.mp hclasses)]

/-- A successful load comes from a reply of its exchange. -/
theorem load_ok {env : ExchangeEnv} {artifactPath : PyStr} {generation : Int}
    {servingDigest : PyStr} {classCount timeout : Int} {w : NativeWorker}
    {s : Served Unit}
    (h : (load env artifactPath generation servingDigest classCount timeout w).1
      = .ok s) :
    ∃ rep, (exchange env
        (loadHeader w.requests artifactPath generation servingDigest classCount) []
        ⟨w.requests, generation⟩ timeout w.takeId).1 = .ok rep ∧
      s = ⟨(), ⟨w.requests, generation⟩, rep.sources⟩ := by
  by_cases hclasses : 0 < classCount
  · rw [load_of_pos env artifactPath generation servingDigest hclasses] at h
    obtain ⟨rep, hrep, hs, -⟩ := loadEnds_ok h
    exact ⟨rep, hrep, hs⟩
  · rw [load_of_nonpos env artifactPath generation servingDigest
      (Int.not_lt.mp hclasses)] at h
    contradiction

/-- A successful load marks the worker as loaded. -/
theorem load_ok_loaded {env : ExchangeEnv} {artifactPath : PyStr} {generation : Int}
    {servingDigest : PyStr} {classCount timeout : Int} {w w' : NativeWorker}
    {s : Served Unit}
    (h : load env artifactPath generation servingDigest classCount timeout w =
      (.ok s, w')) : w'.loaded = true := by
  by_cases hclasses : 0 < classCount
  · rw [load_of_pos env artifactPath generation servingDigest hclasses] at h
    obtain ⟨rep, -, -, hloaded⟩ := loadEnds_ok (congrArg Prod.fst h)
    rwa [h] at hloaded
  · rw [load_of_nonpos env artifactPath generation servingDigest
      (Int.not_lt.mp hclasses)] at h
    cases h

/-- A load on a quiet socket that is answered with one whole clean
{lit}`STATUS`. -/
theorem load_of_reply {env : ExchangeEnv} {artifactPath servingDigest : PyStr}
    {generation classCount timeout : Int} {w : NativeWorker} {frame : Bytes}
    {rep : Fields} {out : Bytes} (halive : env.alive = true) (hsend : env.send = .sent)
    (hwrites : env.writes = ReplyChannel.reply frame)
    (hmsg : (sendMessage (loadHeader w.requests artifactPath generation servingDigest
      classCount) []).toBool = true)
    (ht : 0 ≤ timeout) (hclasses : 0 < classCount) (hquiet : w.channel = .empty)
    (hrecv : ∀ starved, recvMessage env.recursionLimit starved frame =
      .message rep out frame.length) (htype : isType rep (py "STATUS") = true)
    (hcode : (Fields.get rep (py "error_code")).truthy = false) :
    ∃ served, load env artifactPath generation servingDigest classCount timeout w =
      (.ok served, ⟨generation, w.requests + 1, true, some timeout, .empty⟩) := by
  obtain ⟨bytes, hbytes⟩ := exists_of_toBool hmsg
  have hunread : w.takeId.channel.unread = [] := by
    rw [takeId_channel, hquiet]
    rfl
  have hpending : w.takeId.channel.pending ++ [(⟨w.requests, generation⟩ : RequestTag)] =
      ⟨w.requests, generation⟩ :: [] := by
    rw [takeId_channel, hquiet]
    rfl
  have hx : exchange env (loadHeader w.requests artifactPath generation servingDigest
      classCount) [] ⟨w.requests, generation⟩ timeout w.takeId = _ :=
    exchange_of_reply halive hsend hwrites hbytes ht hunread hpending hrecv
  refine ⟨⟨(), ⟨w.requests, generation⟩, frame.map fun _ => ⟨w.requests, generation⟩⟩, ?_⟩
  rw [load_of_pos env artifactPath generation servingDigest hclasses, hx]
  simp only [loadEnds, htype, hcode, Bool.not_true, Bool.or_false, Bool.false_eq_true,
    if_false]
  rfl

/-- An inference on a quiet socket that is answered with one whole clean
{lit}`RESULT`. -/
theorem infer_of_reply {env : ExchangeEnv} {payload : Bytes} {shape : List Json}
    {generation timeout : Int} {w : NativeWorker} {frame : Bytes} {rep : Fields}
    {out : Bytes} (halive : env.alive = true) (hsend : env.send = .sent)
    (hwrites : env.writes = ReplyChannel.reply frame)
    (hmsg : (sendMessage (inferHeader w.requests shape generation) payload).toBool = true)
    (ht : 0 ≤ timeout) (hquiet : w.channel = .empty)
    (hrecv : ∀ starved, recvMessage env.recursionLimit starved frame =
      .message rep out frame.length) (htype : isType rep (py "RESULT") = true)
    (hcode : (Fields.get rep (py "error_code")).truthy = false)
    (hlen : out.length = resultBytes) :
    infer env payload shape generation timeout w =
      (.ok ⟨out, ⟨w.requests, generation⟩, frame.map fun _ => ⟨w.requests, generation⟩⟩,
        { w with
          requests := w.requests + 1, sockTimeout := some timeout, channel := .empty }) := by
  obtain ⟨bytes, hbytes⟩ := exists_of_toBool hmsg
  have hunread : w.takeId.channel.unread = [] := by
    rw [takeId_channel, hquiet]
    rfl
  have hpending : w.takeId.channel.pending ++ [(⟨w.requests, generation⟩ : RequestTag)] =
      ⟨w.requests, generation⟩ :: [] := by
    rw [takeId_channel, hquiet]
    rfl
  have hx : exchange env (inferHeader w.requests shape generation) payload
      ⟨w.requests, generation⟩ timeout w.takeId = _ :=
    exchange_of_reply halive hsend hwrites hbytes ht hunread hpending hrecv
  unfold infer
  simp only [hx, htype, hcode, hlen, Bool.not_true, Bool.or_false, Bool.false_eq_true,
    if_false, ne_eq, not_true_eq_false]
  rfl

/-- An inference changes the worker exactly as its exchange does. -/
theorem infer_worker (env : ExchangeEnv) (payload : Bytes) (shape : List Json)
    (generation timeout : Int) (w : NativeWorker) :
    (infer env payload shape generation timeout w).2 =
      (exchange env (inferHeader w.requests shape generation) payload
        ⟨w.requests, generation⟩ timeout w.takeId).2 := by
  unfold infer
  dsimp only
  split
  · rename_i e w' hx
    rw [hx]
  · rename_i rep w' hx
    rw [hx]
    split
    · rfl
    · split <;> rfl

/-- An inference does not change whether the worker is loaded. -/
theorem infer_loaded (env : ExchangeEnv) (payload : Bytes) (shape : List Json)
    (generation timeout : Int) (w : NativeWorker) :
    (infer env payload shape generation timeout w).2.loaded = w.loaded := by
  rw [infer_worker]
  exact (exchange_spec env _ payload _ timeout w.takeId).1.loaded

/-- A successful inference comes from a reply of its exchange. -/
theorem infer_ok {env : ExchangeEnv} {payload : Bytes} {shape : List Json}
    {generation timeout : Int} {w : NativeWorker} {s : Served Bytes}
    (h : (infer env payload shape generation timeout w).1 = .ok s) :
    ∃ rep, (exchange env (inferHeader w.requests shape generation) payload
        ⟨w.requests, generation⟩ timeout w.takeId).1 = .ok rep ∧
      s = ⟨rep.payload, ⟨w.requests, generation⟩, rep.sources⟩ := by
  unfold infer at h
  dsimp only at h
  split at h
  · contradiction
  · rename_i rep w' hx
    split at h
    · contradiction
    · split at h
      · contradiction
      · exact ⟨rep, by rw [hx], (Except.ok.inj h).symm⟩

/-! ## The bytes of a load -/

/-- A LOAD is refused for the size of its header only. -/
theorem sendMessage_loadHeader (requestId : Nat) (artifactPath : PyStr)
    (generation : Int) (servingDigest : PyStr) (classCount : Int) :
    (∃ frame, sendMessage (loadHeader requestId artifactPath generation servingDigest
        classCount) [] = .ok frame) ↔
      (encodeHeader (wireHeader (loadHeader requestId artifactPath generation
        servingDigest classCount) [])).length ≤ maxHeaderBytes := by
  have hknown : knownType (withVersion (loadHeader requestId artifactPath generation
      servingDigest classCount)) = true := rfl
  have hversion : (Fields.get (withVersion (loadHeader requestId artifactPath generation
      servingDigest classCount)) (py "protocol_version")).eqInt protocolVersion = true :=
    rfl
  simp only [sendMessage, hknown, hversion, Bool.not_true, Bool.false_eq_true, if_false,
    List.length_nil, gt_iff_lt, Nat.not_lt_zero, decide_false, Bool.false_and]
  split
  · rename_i hlong
    exact iff_of_false (by simp) (Nat.not_le.mpr hlong)
  · rename_i hshort
    exact iff_of_true ⟨_, rfl⟩ (Nat.not_lt.mp hshort)

/-- A send that fails wrote something exactly when the child takes a byte of it. -/
theorem cut_ne_nil_iff {frame : Bytes} (hframe : 4 ≤ frame.length) {send : SendOutcome}
    {sockTimeout : Option Int} {e : PyExc} (h : send.raises sockTimeout = some e) :
    send.cut frame ≠ [] ↔ send.Reaches sockTimeout := by
  have htake : ∀ count, frame.take (min count (frame.length - 1)) ≠ [] ↔ 0 < count := by
    intro count
    rw [ne_eq, List.take_eq_nil_iff, ← List.length_eq_zero_iff]
    omega
  cases send with
  | sent => contradiction
  | broken count => exact htake count
  | stalled count =>
      have htimeout : sockTimeout ≠ none := by
        rintro rfl
        contradiction
      simp only [SendOutcome.cut, htake, SendOutcome.Reaches, htimeout, or_false]

/-- **When a load puts bytes on the socket**: it has classes, the child is alive, the
header fits, and the child takes a byte of the message. -/
theorem tracedLoad_written_iff (env : ExchangeEnv) (artifactPath : PyStr)
    (generation : Int) (servingDigest : PyStr) (classCount timeout : Int)
    (w : NativeWorker) :
    (tracedLoad env artifactPath generation servingDigest classCount timeout w).2 ≠ [] ↔
      0 < classCount ∧ env.alive = true ∧
        (encodeHeader (wireHeader (loadHeader w.requests artifactPath generation
          servingDigest classCount) [])).length ≤ maxHeaderBytes ∧
        env.send.Reaches w.sockTimeout := by
  rw [← sendMessage_loadHeader]
  unfold tracedLoad tracedExchange
  by_cases hclasses : 0 < classCount
  · rw [if_neg (Int.not_le.mpr hclasses)]
    cases halive : env.alive with
    | false => simp
    | true =>
        cases hsend : sendMessage (loadHeader w.requests artifactPath generation
            servingDigest classCount) [] with
        | error e => simp
        | ok frame =>
            have hframe := sendMessage_long hsend
            have hsock : w.takeId.sockTimeout = w.sockTimeout := rfl
            cases hraises : env.send.raises w.sockTimeout with
            | some e =>
                simp only [Bool.not_true, Bool.false_eq_true, if_false, hsock, hraises,
                  hclasses, true_and, cut_ne_nil_iff hframe hraises]
                simp
            | none =>
                have hreaches := SendOutcome.reaches_of_raises hraises
                have hne : frame ≠ [] := by
                  rintro rfl
                  simp at hframe
                simp [hsock, hraises, hclasses, hreaches, hne]
  · rw [if_pos (Int.not_lt.mp hclasses)]
    simp [hclasses]

/-- A load that returned was sent. -/
theorem load_ok_written {env : ExchangeEnv} {artifactPath : PyStr} {generation : Int}
    {servingDigest : PyStr} {classCount timeout : Int} {w : NativeWorker}
    {s : Served Unit}
    (h : (load env artifactPath generation servingDigest classCount timeout w).1
      = .ok s) :
    (tracedLoad env artifactPath generation servingDigest classCount timeout w).2 ≠ [] := by
  have hclasses : 0 < classCount := by
    by_contra hnone
    rw [load_of_nonpos env artifactPath generation servingDigest
      (Int.not_lt.mp hnone)] at h
    contradiction
  obtain ⟨rep, hrep, -⟩ := load_ok h
  obtain ⟨halive, hframe, hraises⟩ := exchange_ok_sent hrep
  rw [tracedLoad_written_iff, ← sendMessage_loadHeader]
  exact ⟨hclasses, halive, hframe, SendOutcome.reaches_of_raises hraises⟩

/-- A load keeps the socket fresh. -/
theorem load_fresh {w : NativeWorker} (hw : w.Fresh) (env : ExchangeEnv)
    (artifactPath : PyStr) (generation : Int) (servingDigest : PyStr)
    (classCount timeout : Int) :
    (load env artifactPath generation servingDigest classCount timeout w).2.Fresh := by
  rcases load_worker env artifactPath generation servingDigest classCount timeout w
    with h | ⟨a, hk, hchannel, hrequests⟩
  · rwa [h]
  · intro t ht
    rw [hchannel] at ht
    rw [hrequests]
    exact hk.fresh hw t ht

/-- An inference keeps the socket fresh. -/
theorem infer_fresh {w : NativeWorker} (hw : w.Fresh) (env : ExchangeEnv)
    (payload : Bytes) (shape : List Json) (generation timeout : Int) :
    (infer env payload shape generation timeout w).2.Fresh := by
  rw [infer_worker]
  exact (exchange_spec env _ payload _ timeout w.takeId).1.fresh hw

/-- A successful load is paired exactly when the socket was quiet before. -/
theorem load_paired_iff {env : ExchangeEnv} {artifactPath : PyStr} {generation : Int}
    {servingDigest : PyStr} {classCount timeout : Int} {w : NativeWorker}
    (hw : w.Fresh) {s : Served Unit}
    (h : (load env artifactPath generation servingDigest classCount timeout w).1
      = .ok s) :
    s.Paired ↔ w.channel.owners = [] := by
  obtain ⟨rep, hrep, rfl⟩ := load_ok h
  have hiff : (∀ r ∈ rep.sources, r = ⟨w.requests, generation⟩) ↔
      w.takeId.channel.owners = [] :=
    exchange_sources_iff (hw.next_notMem generation) hrep
  exact hiff

/-- A successful inference is paired exactly when the socket was quiet before. -/
theorem infer_paired_iff {env : ExchangeEnv} {payload : Bytes} {shape : List Json}
    {generation timeout : Int} {w : NativeWorker} (hw : w.Fresh) {s : Served Bytes}
    (h : (infer env payload shape generation timeout w).1 = .ok s) :
    s.Paired ↔ w.channel.owners = [] := by
  obtain ⟨rep, hrep, rfl⟩ := infer_ok h
  have hiff : (∀ r ∈ rep.sources, r = ⟨w.requests, generation⟩) ↔
      w.takeId.channel.owners = [] :=
    exchange_sources_iff (hw.next_notMem generation) hrep
  exact hiff

end NativeWorker
end Runtime
end FrigateXdna
