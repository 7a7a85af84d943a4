import FrigateXdna.Supervisor.Worker
import FrigateXdna.Transport.Sessions

/-!
# The ZMQ frontend

Two tasks share one event loop: the serve loop parses multipart messages and
queues them, the worker loop handles one queued message at a time.  A handler
waits at three places for a call that runs on another thread: the artifact
pre-check, {lit}`activate_worker` and {lit}`worker_infer`.  The phase says where
the worker loop stands, and the outcome of each call is an input of the step that
resumes it.

Every received message has a number as ghost data, and every reply carries the
number of the message it answers.

Main results:

- Definition {lit}`Frontend.receive`: one iteration of the serve loop.
- Definition {lit}`Frontend.take`: the worker loop takes a message and runs to its
  first wait.
- Definition {lit}`Frontend.usableDone`, {lit}`Frontend.activateDone`,
  {lit}`Frontend.inferDone`: the three resumptions.
-/

namespace FrigateXdna
namespace Transport

open Python FrigateXdna.Runtime

/-! ## Constants and the transfer gate -/

/-- {lit}`MODEL_OP_DEADLINE_S`. -/
def modelOpDeadline : Int := 25000000000

/-- {lit}`QUEUE_MAX`. -/
def queueMax : Nat := 8

/-- {lit}`ZERO_FRAME`. -/
def zeroFrame : Bytes :=
  List.replicate (20 * 6 * 4) 0

/-- {lit}`check_transfer`. -/
def checkTransfer (allowUploads : Bool) (nbytes : Nat) : Except FxdnaError Unit :=
  if !allowUploads then
    .error ⟨exitInvalidArgs, py "INVALID_MODEL",
      py "model transfers disabled by configuration (FXDNA_ALLOW_UPLOADS=false)"⟩
  else if nbytes = 0 || nbytes > maxModelBytes then
    .error ⟨exitInvalidArgs, py "INVALID_MODEL",
      py "transfer size out of bounds: " ++ natDigits nbytes ++ py " bytes"⟩
  else
    .ok ()

/-- The files of an artifact: whether {lit}`model.rai` is one, and what reading
{lit}`artifact.json` gives; {lit}`limit` is the recursion limit of the parser. -/
structure ArtifactFiles where
  limit : Nat
  isFile : Bool
  content : Except PyExc Bytes

/-- {lit}`_artifact_usable`. -/
def artifactUsable (files : ArtifactFiles) : Except PyExc Bool :=
  if !files.isFile then .ok false
  else
    match files.content.bind (loads files.limit) with
    | .error e => if e.isOSError || e == .valueError then .ok false else .error e
    | .ok metadata =>
        match metadata.get (py "backend") with
        | .error e => .error e
        | .ok backend => .ok !(backend.eqStr (py "fake-v0"))

/-- The files of an artifact that was compiled for the device. -/
def readyArtifact : ArtifactFiles where
  limit := 1000
  isFile := true
  content := .ok ((py "\x7b\"backend\":\"ryzen-ai\"\x7d").map UInt8.ofNat)

theorem artifactUsable_ready : artifactUsable readyArtifact = .ok true := by
  decide +kernel

/-! ## Replies -/

/-- The last frame of a reply. -/
inductive Reply
  | json (obj : Fields)
  | raw (data : Bytes)

/-- A reply on the wire, with the number of the message it answers. -/
structure Sent where
  msg : Nat
  identity : Bytes
  reply : Reply

/-- {lit}`{"error_code": code}`. -/
def errorReply (code : PyStr) : Reply :=
  .json [(py "error_code", .str code)]

/-- A refused transfer. -/
def notSavedReply (code : PyStr) : Reply :=
  .json [(py "model_saved", .bool false), (py "model_loaded", .bool false),
    (py "error_code", .str code)]

/-- A transfer that is not served yet. -/
def preparingReply (code : PyStr) : Reply :=
  .json [(py "model_saved", .bool true), (py "model_loaded", .bool false),
    (py "state", .str (py "PREPARING")), (py "error_code", .str code)]

/-- A transfer that is served. -/
def savedReply : Reply :=
  .json [(py "model_saved", .bool true), (py "model_loaded", .bool true)]

/-- The answer to a model request. -/
def availableReply (available : Bool) : Reply :=
  .json [(py "model_available", .bool available), (py "model_loaded", .bool available)]

/-- The reply to an expired model request. -/
def expiredRequestReply : Reply :=
  .json [(py "error_code", .str (py "TIMEOUT")), (py "message", .str (py "request expired"))]

/-- Whether a reply tells the client that its model is loaded. -/
def Reply.claimsLoaded : Reply → Bool
  | .json obj =>
      (Fields.get obj (py "model_loaded")).truthy ||
        (Fields.get obj (py "model_available")).truthy
  | .raw _ => false

/-! ## State -/

/-- The request accounting. -/
structure Counters where
  accepted : Nat := 0
  success : Nat := 0
  zero : Nat := 0
  rejected : Nat := 0
  timeout : Nat := 0
  lateDiscard : Nat := 0

/-- A queued request. -/
structure Message where
  id : Nat
  identity : Bytes
  header : Json
  data : Bytes
  deadline : Int

/-- The content a prepared transfer binds its identity to. -/
structure Transfer where
  compileKey : PyStr
  servingDigest : PyStr
  sourceSha256 : PyStr

/-- Where the worker loop stands. -/
inductive Phase
  | idle
  | checking (m : Message) (t : Transfer)
  | activating (m : Message) (t : Transfer)
  | forwarding (m : Message) (shape : List Json) (remain : Int)
  | dead (e : Raised)

/-- {lit}`FrigateZmqFrontend`.  {lit}`serving` says whether the serve loop is
alive, {lit}`received` counts the messages taken off the socket. -/
structure Frontend where
  sessions : SessionTable := {}
  queue : List Message := []
  generation : Int := 0
  activeArtifact : Option PyStr := none
  counters : Counters := {}
  phase : Phase := .idle
  serving : Bool := true
  received : Nat := 0

namespace Frontend

/-! ## The serve loop -/

/-- The reply of the serve loop to a message it does not queue. -/
def refuse (f : Frontend) (identity : Bytes) (code : PyStr) : Frontend × List Sent :=
  ({ f with
      received := f.received + 1
      counters := { f.counters with rejected := f.counters.rejected + 1 } },
    [⟨f.received, identity, errorReply code⟩])

/-- The header and data frames of an envelope: an empty second frame that is not
the last one is a delimiter. -/
def frames : List Bytes → Bytes × Bytes
  | [] => ([], [])
  | [header] => (header, [])
  | [] :: header :: rest => (header, rest.headD [])
  | header :: data :: _ => (header, data)

/-- {lit}`json.loads(header_raw.decode()) if header_raw else {}`. -/
def parseHeader (limit : Nat) (raw : Bytes) : Except PyExc Json :=
  if raw.isEmpty then .ok (.obj []) else loads limit raw

/-- One iteration of the serve loop on a received multipart message.  An
exception other than {lit}`ValueError` in the parser leaves the loop. -/
def receive (limit : Nat) (now : Int) (parts : List Bytes) (f : Frontend) :
    Frontend × List Sent :=
  match parts with
  | [] => (f, [])
  | [_] => (f, [])
  | identity :: rest =>
      let raw := (frames rest).1
      if raw.length > maxHeaderBytes then
        f.refuse identity (py "INVALID_MODEL")
      else
        match parseHeader limit raw with
        | .error .valueError => f.refuse identity (py "INVALID_MODEL")
        | .error _ => ({ f with received := f.received + 1, serving := false }, [])
        | .ok header =>
            if f.queue.length ≥ queueMax then
              f.refuse identity (py "RESOURCE_EXCEEDED")
            else
              ({ f with
                  received := f.received + 1
                  queue := f.queue ++
                    [⟨f.received, identity, header, (frames rest).2,
                      now + modelOpDeadline⟩] }, [])

/-! ## Ends of a handler -/

/-- The handler has replied and the loop goes on. -/
def reply (f : Frontend) (m : Message) (r : Reply) : Frontend × List Sent :=
  ({ f with phase := .idle }, [⟨m.id, m.identity, r⟩])

/-- An exception leaves the worker loop. -/
def die (f : Frontend) (e : Raised) (sent : List Sent) : Frontend × List Sent :=
  ({ f with phase := .dead e }, sent)

/-- Count a rejected request. -/
def countRejected (f : Frontend) : Frontend :=
  { f with counters := { f.counters with rejected := f.counters.rejected + 1 } }

/-- Bind the identity of a transfer to the current generation. -/
def bindTransfer (f : Frontend) (m : Message) (t : Transfer) (now : Int) : Frontend :=
  { f with
    sessions := f.sessions.bind
      { identity := m.identity
        sourceSha256 := t.sourceSha256
        servingDigest := t.servingDigest
        compileKey := t.compileKey
        generation := f.generation
        createdAt := now
        lastUsedAt := now } }

/-- Bind, reply that the model is loaded, and report the handshake; the console
event may raise. -/
def bindAndReply (f : Frontend) (m : Message) (t : Transfer) (now : Int)
    (emitFault : Option PyExc) : Frontend × List Sent :=
  match emitFault with
  | none => (f.bindTransfer m t now).reply m savedReply
  | some e =>
      (f.bindTransfer m t now).die (.builtin e) [⟨m.id, m.identity, savedReply⟩]

/-! ## The worker loop up to the first wait -/

/-- What {lit}`ingest_zmq_bytes` returns, as far as the frontend reads it. -/
structure IngestResult where
  compileKey : PyStr
  servingDigest : PyStr
  cacheHit : Bool
  state : PyStr

/-- Everything a handler meets before its first wait: the successive clock
readings, of which the first serves the deadline check and the session table, which reads the
clock again in the source, the digest of the data, the outcome of the shared inspector (profile and
error text) and of {lit}`ingest_zmq_bytes`, whether the device lease is acquired,
and whether the console event raises. -/
structure TakeEnv where
  now : Int
  checked : Int
  forwarded : Int
  sha256 : PyStr
  inspection : Except Raised (Option PyStr × PyStr)
  ingest : Except Raised IngestResult
  lease : Bool
  emitFault : Option PyExc

/-- The reply to a request whose deadline passed in the queue. -/
def expired (f : Frontend) (m : Message) : Frontend × List Sent :=
  let f := { f with
    counters := { f.counters with lateDiscard := f.counters.lateDiscard + 1 } }
  match m.header.hasKey (py "shape") with
  | .error e => f.die (.builtin e) []
  | .ok true => f.reply m (.raw zeroFrame)
  | .ok false =>
      match m.header.get (py "model_request") with
      | .error e => f.die (.builtin e) []
      | .ok request =>
          if request.truthy then f.reply m expiredRequestReply
          else
            match m.header.get (py "model_data") with
            | .error e => f.die (.builtin e) []
            | .ok data =>
                if data.truthy then f.reply m (notSavedReply (py "TIMEOUT"))
                else f.reply m (errorReply (py "TIMEOUT"))

/-- {lit}`_handle_model_request`. -/
def handleModelRequest (f : Frontend) (m : Message) (now : Int) :
    Frontend × List Sent :=
  match f.sessions.get m.identity with
  | some binding =>
      if binding.generation == f.generation && (f.activeArtifact.getD []) ≠ [] then
        { f with sessions := f.sessions.touch m.identity now }.reply m
          (availableReply true)
      else f.reply m (availableReply false)
  | none => f.reply m (availableReply false)

/-- {lit}`_try_activate` up to the artifact pre-check. -/
def tryActivate (f : Frontend) (m : Message) (t : Transfer) (lease : Bool) :
    Frontend × List Sent :=
  if lease then ({ f with phase := .checking m t }, [])
  else f.reply m (preparingReply (py "MODEL_NOT_PREPARED"))

/-- {lit}`_handle_prepared` up to the first wait. -/
def handlePrepared (f : Frontend) (m : Message) (t : Transfer) (env : TakeEnv) :
    Frontend × List Sent :=
  match f.activeArtifact with
  | none => f.tryActivate m t env.lease
  | some active =>
      if t.compileKey = active then
        f.bindAndReply m t env.now env.emitFault
      else if f.sessions.hasActiveTraffic f.generation env.now then
        f.reply m (preparingReply (py "MODEL_IN_USE"))
      else
        f.tryActivate m t env.lease

/-- {lit}`_handle_model_data` up to the first wait. -/
def handleModelData (cfg : Config) (f : Frontend) (m : Message) (env : TakeEnv) :
    Frontend × List Sent :=
  match checkTransfer cfg.allowUploads m.data.length with
  | .error e => f.countRejected.reply m (notSavedReply e.errorCode)
  | .ok () =>
      match env.inspection with
      | .error (.fxdna e) => f.countRejected.reply m (notSavedReply e.errorCode)
      | .error _ => f.countRejected.reply m (notSavedReply (py "INVALID_MODEL"))
      | .ok (none, _) =>
          f.countRejected.reply m (notSavedReply (py "UNSUPPORTED_CONTRACT"))
      | .ok (some _, _) =>
          match env.ingest with
          | .error (.fxdna e) => f.countRejected.reply m (notSavedReply e.errorCode)
          | .error e => f.die e []
          | .ok result =>
              if result.cacheHit && result.state == py "PREPARED" then
                f.handlePrepared m ⟨result.compileKey, result.servingDigest,
                  env.sha256⟩ env
              else
                f.reply m (preparingReply (py "MODEL_NOT_PREPARED"))

/-- {lit}`elems *= int(d)` over the shape. -/
def elements : List Json → Except PyExc Int
  | [] => .ok 1
  | d :: rest => do
      let n ← d.toInt
      let others ← elements rest
      .ok (n * others)

/-- The shape of a request whose declared size is that of its data. -/
def tensorShape (header : Json) (data : Bytes) : Option (List Json) :=
  match header.get (py "shape"), header.get (py "dtype") with
  | .ok (.arr shape), .ok dtype =>
      if dtype.eqStr (py "float32") then
        match elements shape with
        | .ok n => if n * 4 = data.length then some shape else none
        | .error _ => none
      else none
  | _, _ => none

/-- {lit}`_handle_infer` up to the call of {lit}`worker_infer`. -/
def handleInfer (f : Frontend) (m : Message) (env : TakeEnv) : Frontend × List Sent :=
  let f := { f with counters := { f.counters with accepted := f.counters.accepted + 1 } }
  match f.sessions.get m.identity with
  | none => f.countRejected.reply m (.raw zeroFrame)
  | some binding =>
      if binding.generation ≠ f.generation then
        f.countRejected.reply m (.raw zeroFrame)
      else if env.checked ≥ m.deadline then
        { f with counters := { f.counters with timeout := f.counters.timeout + 1 } }.reply
          m (.raw zeroFrame)
      else
        match tensorShape m.header m.data with
        | none => f.countRejected.reply m (.raw zeroFrame)
        | some shape =>
            let remain := max (m.deadline - env.forwarded) 0
            ({ f with phase := .forwarding m shape remain }, [])

/-- The worker loop handles one message, up to its first wait. -/
def process (cfg : Config) (env : TakeEnv) (m : Message) (f : Frontend) :
    Frontend × List Sent :=
  if env.now ≥ m.deadline then f.expired m
  else
    match m.header.get (py "model_request") with
    | .error e => f.die (.builtin e) []
    | .ok request =>
        if request.truthy then f.handleModelRequest m env.now
        else
          match m.header.get (py "model_data") with
          | .error e => f.die (.builtin e) []
          | .ok data =>
              if data.truthy then f.handleModelData cfg m env
              else
                match m.header.hasKey (py "shape") with
                | .error e => f.die (.builtin e) []
                | .ok true => f.handleInfer m env
                | .ok false => f.countRejected.reply m (errorReply (py "INVALID_MODEL"))

/-- The worker loop takes the next message when it is idle. -/
def take (cfg : Config) (env : TakeEnv) (f : Frontend) :
    Option (Frontend × List Sent) :=
  match f.phase, f.queue with
  | .idle, m :: rest => some (process cfg env m { f with queue := rest })
  | _, _ => none

/-! ## The resumptions -/

/-- The artifact pre-check is over. -/
def usableDone (outcome : Except PyExc Bool) (f : Frontend) :
    Option (Frontend × List Sent) :=
  match f.phase with
  | .checking m t =>
      match outcome with
      | .error e => some (f.die (.builtin e) [])
      | .ok false => some (f.reply m (preparingReply (py "MODEL_NOT_PREPARED")))
      | .ok true => some ({ f with phase := .activating m t }, [])
  | _ => none

/-- {lit}`activate_worker` is over.  A switch moves to the next generation,
invalidates the bindings of the old one and supersedes the replaced model. -/
def activateDone (now : Int) (emitFault : Option PyExc) (outcome : Except Raised Bool)
    (f : Frontend) : Option (Frontend × List Sent) :=
  match f.phase with
  | .activating m t =>
      match outcome with
      | .ok true =>
          let activated := { f with activeArtifact := some t.compileKey }
          match f.activeArtifact with
          | none => some (activated.bindAndReply m t now emitFault)
          | some old =>
              let switched := { activated with
                generation := f.generation + 1
                sessions := (f.sessions.invalidateGeneration f.generation).markSuperseded
                  old }
              some (switched.bindAndReply m t now emitFault)
      | _ => some (f.reply m (preparingReply (py "MODEL_NOT_PREPARED")))
  | _ => none

/-- {lit}`worker_infer` is over. -/
def inferDone (now : Int) (outcome : Except Raised (InferStatus × Bytes))
    (f : Frontend) : Option (Frontend × List Sent) :=
  match f.phase with
  | .forwarding m _ _ =>
      let touched := { f with sessions := f.sessions.touch m.identity now }
      match outcome with
      | .ok (.ok, result) =>
          some ({ touched with counters :=
            { f.counters with success := f.counters.success + 1 } }.reply m (.raw result))
      | .ok (.noWorker, _) =>
          some ({ touched with counters :=
            { f.counters with zero := f.counters.zero + 1 } }.reply m (.raw zeroFrame))
      | _ => some (touched.countRejected.reply m (.raw zeroFrame))
  | _ => none

end Frontend
end Transport
end FrigateXdna
