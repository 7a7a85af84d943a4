import FrigateXdna.Library.Transition
import FrigateXdna.Runtime.Pairing
import FrigateXdna.Supervisor.Worker

/-!
# Whole frames on the worker socket

A link is the worker with every byte that went over its socket: what the supervisor wrote, and
what it took of the child's stream.  A timeout ends a send or a receive wherever it stands, and
{lit}`worker_infer` keeps a worker that timed out.

Main results:

- Definition {lit}`Link.machine`: loads and inferences with the bytes they leave behind.
- Theorem {lit}`workerInfer_worker`: {lit}`worker_infer` keeps the worker as the link does.
- Theorem {lit}`exchange_whole`: one exchange of a worker that is kept.
- Theorem {lit}`kept_link_whole`: runs whose kept timeouts fire between frames.
- Theorem {lit}`half_reply_left`: a timeout within a reply.
-/

namespace FrigateXdna

open Python Library FrigateXdna.Runtime

/-! ## The bytes of an exchange -/

/-- What one exchange meets outside the process. -/
structure Turn where
  alive : Bool := true
  sending : SendOutcome := .sent
  writes : List (ServerWrite UInt8) := []
  ending : StreamEnd := .expired
  text : PyStr := []

/-- The environment of the exchange. -/
def Turn.env (limit : Nat) (t : Turn) : ExchangeEnv where
  alive := t.alive
  send := t.sending
  writes := t.writes
  ending := t.ending
  recursionLimit := limit
  text := t.text

/-- One call of {lit}`_exchange`: the message, its tag and the timeout of the receive. -/
structure Exchange where
  header : Fields
  payload : Bytes
  tag : RequestTag
  timeout : Int

/-- The bytes on the socket when the receive of an exchange ends. -/
def arrived (limit : Nat) (t : Turn) (x : Exchange) (w : NativeWorker) : Bytes :=
  (w.answered (t.env limit) x.tag).channel.unread.map Prod.fst

/-- What an exchange writes to the socket. -/
def sentBytes (limit : Nat) (t : Turn) (x : Exchange) (w : NativeWorker) : Bytes :=
  (w.tracedExchange (t.env limit) x.header x.payload x.tag x.timeout).2

/-- What an exchange takes off the socket. -/
def readBytes (limit : Nat) (t : Turn) (x : Exchange) (w : NativeWorker) : Bytes :=
  if !t.alive then []
  else
    match sendMessage x.header x.payload with
    | .error _ => []
    | .ok _ =>
        match t.sending.raises w.sockTimeout with
        | some _ => []
        | none =>
            if x.timeout < 0 then []
            else
              (arrived limit t x w).take
                (recvMessage limit (t.ending.raises x.timeout) (arrived limit t x w)).used

/-! ## The link -/

/-- The worker, whether the supervisor keeps it, and the bytes that went over its socket. -/
structure Link where
  native : NativeWorker := .spawned
  kept : Bool := true
  written : Bytes := []
  heard : Bytes := []

/-- Whether {lit}`worker_infer` keeps the worker after what an inference raised. -/
def keepsRaise : WorkerRaise → Bool
  | .worker e => !dropsWorker e.code
  | .builtin _ => true

/-- Whether {lit}`worker_infer` keeps the worker after an inference. -/
def keepsInfer {α : Type} : Except WorkerRaise α → Bool
  | .ok _ => true
  | .error e => keepsRaise e

namespace Link

/-- A load, an inference, or a stretch of child activity between two exchanges. -/
inductive Label
  | load (t : Turn) (artifactPath : PyStr) (generation : Int) (servingDigest : PyStr)
      (classCount timeout : Int)
  | infer (t : Turn) (payload : Bytes) (shape : List Json) (timeout : Int)
  | late (writes : List (ServerWrite UInt8))

/-- The exchange of a step, unless it makes none. -/
def exchangeOf (l : Link) : Label → Option (Turn × Exchange)
  | .load t artifactPath generation servingDigest classCount timeout =>
      if classCount ≤ 0 then none
      else some (t,
        ⟨NativeWorker.loadHeader l.native.requests artifactPath generation servingDigest
          classCount, [], ⟨l.native.requests, generation⟩, timeout⟩)
  | .infer t payload shape timeout =>
      some (t,
        ⟨NativeWorker.inferHeader l.native.requests shape l.native.generation, payload,
          ⟨l.native.requests, l.native.generation⟩, timeout⟩)
  | .late _ => none

/-- The bytes of a step are written and read. -/
def carry (limit : Nat) (l : Link) (label : Label) (native : NativeWorker) (kept : Bool) : Link :=
  match l.exchangeOf label with
  | none => { l with native, kept }
  | some (t, x) =>
      { native, kept
        written := l.written ++ sentBytes limit t x l.native.takeId
        heard := l.heard ++ readBytes limit t x l.native.takeId }

/-- One step on a worker that is kept: a worker whose load fails is retired, and an inference
needs a loaded one. -/
def step (limit : Nat) (l : Link) (label : Label) : Option (Link × List Unit) :=
  if !l.kept then none
  else
    match label with
    | .load t artifactPath generation servingDigest classCount timeout =>
        let r := l.native.load (t.env limit) artifactPath generation servingDigest classCount
          timeout
        some (l.carry limit label r.2 r.1.toBool, [])
    | .infer t payload shape timeout =>
        if !l.native.loaded then none
        else
          let r := l.native.infer (t.env limit) payload shape l.native.generation timeout
          some (l.carry limit label r.2 (keepsInfer r.1), [])
    | .late writes =>
        some ({ l with native := { l.native with channel := l.native.channel.writes writes } }, [])

/-- Links as a machine. -/
def machine (limit : Nat) : Machine Link Label Unit where
  step := step limit

/-- All that the child wrote so far. -/
def spoken (l : Link) : Bytes :=
  l.heard ++ l.native.channel.unread.map Prod.fst

end Link

/-- **{lit}`worker_infer` keeps the worker** as the link does. -/
theorem workerInfer_worker {s : Supervisor} {child : Child} (hworker : s.worker = some child)
    (hloaded : child.native.loaded = true) {env : InferEnv} (halive : env.alive = true)
    (payload : Bytes) (shape : List Json) (timeout : Int) :
    (workerInfer env payload shape timeout s).2.worker =
      let r := child.native.infer env.exchange payload shape child.native.generation timeout
      if keepsInfer r.1 then some { child with native := r.2 } else none := by
  unfold workerInfer
  rw [hworker]
  simp only [hloaded, halive, Bool.not_true, Bool.false_eq_true, if_false]
  generalize child.native.infer env.exchange payload shape child.native.generation timeout = r
  obtain ⟨result, native⟩ := r
  rcases result with (e | e) | served
  · by_cases hdrops : dropsWorker e.code = true
    · simp [hdrops, keepsInfer, keepsRaise, failedAfterDrop_snd, dropWorker_snd]
    · have hkeeps : dropsWorker e.code = false := by simpa using hdrops
      simp only [hkeeps, keepsInfer, keepsRaise, Bool.false_eq_true, if_false, Bool.not_false,
        if_true]
      split <;> rfl
  · rfl
  · rfl

/-! ## Whole frames -/

/-- The bytes are whole requests one after another. -/
def WholeFrames (bytes : Bytes) : Prop :=
  ∃ frames : List Bytes,
    (∀ f ∈ frames, ∃ header payload, sendMessage header payload = .ok f) ∧ bytes = frames.flatten

/-- Some bytes are one message as {lit}`recv_message` reads it. -/
def IsReply (limit : Nat) (f : Bytes) : Prop :=
  ∃ header payload, recvMessage limit .timeoutError f = .message header payload f.length

/-- The bytes are whole replies one after another. -/
def WholeReplies (limit : Nat) (bytes : Bytes) : Prop :=
  ∃ replies : List Bytes, (∀ f ∈ replies, IsReply limit f) ∧ bytes = replies.flatten

/-- The bytes are the beginning of replies one after another. -/
def Talks (limit : Nat) (bytes : Bytes) : Prop :=
  ∃ replies : List Bytes, (∀ f ∈ replies, IsReply limit f) ∧ bytes <+: replies.flatten

/-- No half request went out, and no half reply was read. -/
structure Link.Whole (limit : Nat) (l : Link) : Prop where
  written : WholeFrames l.written
  heard : WholeReplies limit l.heard

/-- A timeout that keeps the worker fires before the first byte of the request is out, or
before the first byte of a reply or after a whole reply has arrived. -/
structure BetweenFrames (limit : Nat) (t : Turn) (x : Exchange) (w : NativeWorker) : Prop where
  sends : t.sending.raises w.sockTimeout = some .timeoutError → t.sending = .stalled 0
  reads : t.ending.raises x.timeout = .timeoutError →
    arrived limit t x w = [] ∨ ∃ f, IsReply limit f ∧ f <+: arrived limit t x w

/-- The timeouts of a step fire between frames. -/
def Link.Calm (limit : Nat) (l : Link) (label : Link.Label) : Prop :=
  ∀ t x, l.exchangeOf label = some (t, x) → BetweenFrames limit t x l.native.takeId

/-! ## Replies are told apart by their first bytes -/

section Replies

variable {limit : Nat}

theorem IsReply.recv {f : Bytes} (h : IsReply limit f) :
    ∃ header payload, ∀ starved more,
      recvMessage limit starved (f ++ more) = .message header payload f.length := by
  obtain ⟨header, payload, hrecv⟩ := h
  exact ⟨header, payload, fun starved more => recvMessage_append hrecv starved more⟩

theorem IsReply.ne_nil {f : Bytes} (h : IsReply limit f) : f ≠ [] := by
  obtain ⟨header, payload, hrecv⟩ := h
  rintro rfl
  exact absurd (recvMessage_used_pos hrecv).1 (lt_irrefl _)

/-- Two replies at the head of the same bytes are one. -/
theorem IsReply.eq_of_starts {f g bytes : Bytes} (hf : IsReply limit f) (hg : IsReply limit g)
    (hfb : f <+: bytes) (hgb : g <+: bytes) : f = g := by
  obtain ⟨more, rfl⟩ := hfb
  obtain ⟨rest, hrest⟩ := hgb
  obtain ⟨_, _, hrecv⟩ := hf.recv
  obtain ⟨_, _, hrecv'⟩ := hg.recv
  have hsame := hrecv .timeoutError more
  rw [← hrest, hrecv' .timeoutError rest] at hsame
  have hlength := (Received.message.inj hsame).2.2
  exact (List.append_inj hrest hlength).1.symm

/-- Whole replies at the head of replies are the first of them. -/
theorem eq_append_of_flatten_starts {replies all : List Bytes}
    (hreplies : ∀ f ∈ replies, IsReply limit f) (hall : ∀ f ∈ all, IsReply limit f)
    (h : replies.flatten <+: all.flatten) : ∃ more, all = replies ++ more := by
  induction replies generalizing all with
  | nil => exact ⟨all, rfl⟩
  | cons f rest ih =>
      have hf := hreplies f List.mem_cons_self
      cases all with
      | nil =>
          rw [List.flatten_nil, List.prefix_nil, List.flatten_cons,
            List.append_eq_nil_iff] at h
          exact absurd h.1 hf.ne_nil
      | cons g others =>
          have hg := hall g List.mem_cons_self
          rw [List.flatten_cons, List.flatten_cons] at h
          obtain rfl := hf.eq_of_starts hg ((List.prefix_append f _).trans h)
            (List.prefix_append g _)
          rw [List.prefix_append_right_inj] at h
          obtain ⟨more, rfl⟩ := ih (fun r hr => hreplies r (List.mem_cons_of_mem f hr))
            (fun r hr => hall r (List.mem_cons_of_mem f hr)) h
          exact ⟨more, rfl⟩

theorem Talks.of_starts {bytes more : Bytes} (h : Talks limit more) (hb : bytes <+: more) :
    Talks limit bytes := by
  obtain ⟨replies, hreplies, hmore⟩ := h
  exact ⟨replies, hreplies, hb.trans hmore⟩

/-- What stands behind whole replies begins replies as well. -/
theorem Talks.of_append {heard bytes : Bytes} (hheard : WholeReplies limit heard)
    (h : Talks limit (heard ++ bytes)) : Talks limit bytes := by
  obtain ⟨replies, hreplies, rfl⟩ := hheard
  obtain ⟨all, hall, hprefix⟩ := h
  obtain ⟨more, rfl⟩ := eq_append_of_flatten_starts hreplies hall
    ((List.prefix_append _ _).trans hprefix)
  rw [List.flatten_append, List.prefix_append_right_inj] at hprefix
  exact ⟨more, fun f hf => hall f (List.mem_append_right _ hf), hprefix⟩

theorem WholeReplies.append {heard f : Bytes} (h : WholeReplies limit heard)
    (hf : IsReply limit f) : WholeReplies limit (heard ++ f) := by
  obtain ⟨replies, hreplies, rfl⟩ := h
  refine ⟨replies ++ [f], fun g hg => ?_, by simp⟩
  rcases List.mem_append.mp hg with hmem | hlast
  · exact hreplies g hmem
  · exact List.mem_singleton.mp hlast ▸ hf

end Replies

/-! ## One exchange -/

section Exchange

variable {limit : Nat} {t : Turn} {x : Exchange} {w : NativeWorker}

/-- The exchange of a turn. -/
def Exchange.run (limit : Nat) (t : Turn) (x : Exchange) (w : NativeWorker) :
    Except WorkerRaise Reply × NativeWorker :=
  w.exchange (t.env limit) x.header x.payload x.tag x.timeout

/-- An exchange that fails keeps the worker on a timeout, and on what it does not convert. -/
theorem keepsRaise_exchangeRaise (text : PyStr) (e : PyExc) :
    keepsRaise (exchangeRaise text e) =
      (e == .timeoutError || !(e.isOSError || e == .valueError)) := by
  unfold exchangeRaise
  by_cases htimeout : e = .timeoutError
  · subst htimeout
    rfl
  · rw [if_neg htimeout, beq_eq_false_iff_ne.mpr htimeout, Bool.false_or]
    split
    · rename_i hio
      rw [hio]
      rfl
    · rename_i hio
      rw [Bool.eq_false_iff.mpr hio]
      rfl

/-- A send fails with an {lit}`OSError`. -/
theorem isOSError_of_raises {o : SendOutcome} {sockTimeout : Option Int} {e : PyExc}
    (h : o.raises sockTimeout = some e) : e.isOSError = true := by
  unfold SendOutcome.raises at h
  split at h
  · contradiction
  · exact Option.some.inj h ▸ rfl
  · split at h
    · contradiction
    · split at h <;> exact Option.some.inj h ▸ rfl

/-- A read that finds too few bytes fails with an {lit}`OSError`. -/
theorem isOSError_raises (ending : StreamEnd) (timeout : Int) :
    (ending.raises timeout).isOSError = true := by
  unfold StreamEnd.raises
  split
  · split <;> rfl
  · rfl
  · rfl

theorem not_keeps_of_isOSError {text : PyStr} {e : PyExc} (h : e.isOSError = true)
    (hne : e ≠ .timeoutError) : keepsRaise (exchangeRaise text e) = false := by
  rw [keepsRaise_exchangeRaise, h]
  simpa using hne

/-- The child only adds to what is on the socket. -/
theorem unread_prefix_writes (c : ReplyChannel RequestTag UInt8)
    (ws : List (ServerWrite UInt8)) : c.unread <+: (c.writes ws).unread := by
  induction ws generalizing c with
  | nil => exact List.prefix_rfl
  | cons v ws ih =>
      refine List.IsPrefix.trans ?_ (ih (c.write v))
      unfold ReplyChannel.write
      split
      · exact List.prefix_rfl
      · exact List.prefix_append _ _

/-- What the child wrote before is still on the socket when the receive ends. -/
theorem unread_prefix_arrived (limit : Nat) (t : Turn) (x : Exchange) (w : NativeWorker) :
    w.channel.unread.map Prod.fst <+: arrived limit t x w :=
  (unread_prefix_writes (w.channel.send x.tag) t.writes).map Prod.fst

/-- How an exchange goes. -/
inductive Goes (limit : Nat) (t : Turn) (x : Exchange) (w : NativeWorker) : Prop
  | refused (e : WorkerRaise) (hdrops : keepsRaise e = false)
      (hrun : x.run limit t w = (.error e, w)) (hsent : sentBytes limit t x w = [])
      (hread : readBytes limit t x w = [])
  | unsent (frame : Bytes) (e : PyExc) (hframe : sendMessage x.header x.payload = .ok frame)
      (hraises : t.sending.raises w.sockTimeout = some e)
      (hrun : x.run limit t w =
        (.error (exchangeRaise t.text e), w.afterFailedSend (t.sending.cut frame) x.tag))
      (hsent : sentBytes limit t x w = t.sending.cut frame) (hread : readBytes limit t x w = [])
  | unread (frame : Bytes) (hframe : sendMessage x.header x.payload = .ok frame)
      (hrun : x.run limit t w =
        (.error (exchangeRaise t.text .valueError), w.answered (t.env limit) x.tag))
      (hsent : sentBytes limit t x w = frame) (hread : readBytes limit t x w = [])
  | received (frame : Bytes) (hframe : sendMessage x.header x.payload = .ok frame)
      (r : Received)
      (hr : recvMessage limit (t.ending.raises x.timeout) (arrived limit t x w) = r)
      (hfailed : ∀ e used, r = .failed e used →
        (x.run limit t w).1 = .error (exchangeRaise t.text e))
      (hrun : (x.run limit t w).2 =
        (w.answered (t.env limit) x.tag).consumed x.timeout r.used)
      (hsent : sentBytes limit t x w = frame)
      (hread : readBytes limit t x w = (arrived limit t x w).take r.used)

theorem goes (limit : Nat) (t : Turn) (x : Exchange) (w : NativeWorker) :
    Goes limit t x w := by
  cases halive : t.alive with
  | false =>
      refine .refused (workerError (py "WORKER_DEAD") (py "worker child exited")) ?_ ?_ ?_ ?_
      · decide
      · simp [Exchange.run, NativeWorker.exchange, NativeWorker.tracedExchange, Turn.env, halive]
      · simp [sentBytes, NativeWorker.tracedExchange, Turn.env, halive]
      · simp [readBytes, halive]
  | true =>
      cases hframe : sendMessage x.header x.payload with
      | error e =>
          obtain rfl := sendMessage_error hframe
          refine .refused (exchangeRaise t.text .valueError) ?_ ?_ ?_ ?_
          · rw [keepsRaise_exchangeRaise]
            rfl
          · simp [Exchange.run, NativeWorker.exchange, NativeWorker.tracedExchange, Turn.env,
              halive, hframe]
          · simp [sentBytes, NativeWorker.tracedExchange, Turn.env, halive, hframe]
          · simp [readBytes, halive, hframe]
      | ok frame =>
          cases hraises : t.sending.raises w.sockTimeout with
          | some e =>
              have htraced : w.tracedExchange (t.env limit) x.header x.payload x.tag x.timeout =
                  ((.error (exchangeRaise t.text e),
                    w.afterFailedSend (t.sending.cut frame) x.tag), t.sending.cut frame) := by
                simp [NativeWorker.tracedExchange, Turn.env, halive, hframe, hraises]
              refine .unsent frame e hframe hraises (congrArg Prod.fst htraced)
                (congrArg Prod.snd htraced) ?_
              simp [readBytes, halive, hframe, hraises]
          | none =>
              have htraced : w.tracedExchange (t.env limit) x.header x.payload x.tag x.timeout =
                  ((w.answered (t.env limit) x.tag).receive (t.env limit) x.timeout, frame) := by
                simp [NativeWorker.tracedExchange, Turn.env, halive, hframe, hraises]
              have hsent : sentBytes limit t x w = frame := congrArg Prod.snd htraced
              have hreceive : x.run limit t w =
                  (w.answered (t.env limit) x.tag).receive (t.env limit) x.timeout :=
                congrArg Prod.fst htraced
              by_cases hneg : x.timeout < 0
              · refine .unread frame hframe ?_ hsent ?_
                · rw [hreceive, NativeWorker.receive, if_pos hneg]
                  rfl
                · simp [readBytes, halive, hframe, hraises, hneg]
              · have hread : readBytes limit t x w = (arrived limit t x w).take
                    (recvMessage limit (t.ending.raises x.timeout) (arrived limit t x w)).used := by
                  simp [readBytes, halive, hframe, hraises, hneg]
                have hrecv : ∀ r, recvMessage limit (t.ending.raises x.timeout)
                    (arrived limit t x w) = r →
                    (∀ e used, r = .failed e used →
                      (x.run limit t w).1 = .error (exchangeRaise t.text e)) ∧
                    (x.run limit t w).2 =
                      (w.answered (t.env limit) x.tag).consumed x.timeout r.used := by
                  intro r hr
                  rw [hreceive, NativeWorker.receive, if_neg hneg]
                  dsimp only
                  split
                  · rename_i e used hfailed
                    obtain rfl : Received.failed e used = r := hfailed.symm.trans hr
                    refine ⟨fun e' used' heq => ?_, rfl⟩
                    obtain ⟨rfl, -⟩ := Received.failed.inj heq
                    rfl
                  · rename_i rep out used hmessage
                    obtain rfl : Received.message rep out used = r := hmessage.symm.trans hr
                    exact ⟨fun e' used' heq => by contradiction, rfl⟩
                obtain ⟨hfailed, hrun⟩ := hrecv _ rfl
                exact .received frame hframe _ rfl hfailed hrun hsent hread

/-- An exchange adds to what the child wrote, and takes from its head. -/
theorem spoken_run (limit : Nat) (t : Turn) (x : Exchange) (w : NativeWorker) :
    w.channel.unread.map Prod.fst <+:
      readBytes limit t x w ++ (x.run limit t w).2.channel.unread.map Prod.fst := by
  have harrived := unread_prefix_arrived limit t x w
  rcases goes limit t x w with
    ⟨e, -, hrun, -, hread⟩ | ⟨frame, e, -, -, hrun, -, hread⟩ | ⟨frame, -, hrun, -, hread⟩ |
      ⟨frame, -, r, -, -, hrun, -, hread⟩
  · rw [hrun, hread]
    exact List.prefix_rfl
  · have hunread : (w.afterFailedSend (t.sending.cut frame) x.tag).channel.unread =
        w.channel.unread := by
      unfold NativeWorker.afterFailedSend
      split <;> rfl
    rw [hrun, hread, hunread]
    exact List.prefix_rfl
  · rw [hrun, hread]
    exact harrived
  · rw [hrun, hread]
    have hrest : ((w.answered (t.env limit) x.tag).consumed x.timeout r.used).channel.unread.map
        Prod.fst = (arrived limit t x w).drop r.used := List.map_drop
    rw [hrest, List.take_append_drop]
    exact harrived

/-- **One exchange of a worker that is kept** leaves whole frames behind it, where its timeouts
fire between frames. -/
theorem exchange_whole {written heard : Bytes} (hwritten : WholeFrames written)
    (hheard : WholeReplies limit heard) (hcalm : BetweenFrames limit t x w)
    (hkeeps : ∀ e, (x.run limit t w).1 = .error e → keepsRaise e = true)
    (htalks : Talks limit (heard ++ (readBytes limit t x w ++
      (x.run limit t w).2.channel.unread.map Prod.fst))) :
    WholeFrames (written ++ sentBytes limit t x w) ∧
      WholeReplies limit (heard ++ readBytes limit t x w) := by
  have hframed : ∀ {frame}, sendMessage x.header x.payload = .ok frame →
      WholeFrames (written ++ frame) := by
    rintro frame hframe
    obtain ⟨frames, hframes, rfl⟩ := hwritten
    refine ⟨frames ++ [frame], fun f hf => ?_, by simp⟩
    rcases List.mem_append.mp hf with hmem | hlast
    · exact hframes f hmem
    · exact ⟨x.header, x.payload, List.mem_singleton.mp hlast ▸ hframe⟩
  rcases goes limit t x w with
    ⟨e, hdrops, hrun, hsent, hread⟩ | ⟨frame, e, hframe, hraises, hrun, hsent, hread⟩ |
      ⟨frame, hframe, hrun, hsent, hread⟩ | ⟨frame, hframe, r, hr, hfailed, hrun, hsent, hread⟩
  · have hkept := hkeeps e (by rw [hrun])
    exact absurd (hdrops.symm.trans hkept) (by decide)
  · have hkept := hkeeps _ (by rw [hrun])
    by_cases htimeout : e = .timeoutError
    · subst htimeout
      have hnone := hcalm.sends hraises
      rw [hsent, hread, hnone]
      simpa [SendOutcome.cut] using ⟨hwritten, hheard⟩
    · rw [not_keeps_of_isOSError (isOSError_of_raises hraises) htimeout] at hkept
      contradiction
  · have hkept := hkeeps _ (by rw [hrun])
    rw [keepsRaise_exchangeRaise] at hkept
    contradiction
  · refine ⟨hsent ▸ hframed hframe, ?_⟩
    have hspoken : readBytes limit t x w ++ (x.run limit t w).2.channel.unread.map Prod.fst =
        arrived limit t x w := by
      have hrest : ((w.answered (t.env limit) x.tag).consumed x.timeout r.used).channel.unread.map
          Prod.fst = (arrived limit t x w).drop r.used := List.map_drop
      rw [hrun, hread, hrest, List.take_append_drop]
    rw [hspoken] at htalks
    obtain ⟨replies, hreplies, hprefix⟩ := htalks.of_append hheard
    rw [hread]
    cases replies with
    | nil =>
        rw [List.prefix_nil.mp hprefix]
        simpa using hheard
    | cons f rest =>
        have hf := hreplies f List.mem_cons_self
        rw [List.flatten_cons] at hprefix
        by_cases hwhole : f <+: arrived limit t x w
        · -- A whole reply has arrived and is read.
          obtain ⟨more, hmore⟩ := hwhole
          obtain ⟨_, _, hrecv⟩ := hf.recv
          rw [← hmore, hrecv] at hr
          subst hr
          rw [← hmore]
          simpa [Received.used] using hheard.append hf
        · -- A part of a reply has arrived: the receive fails, and only a timeout keeps the worker.
          have hpart : arrived limit t x w <+: f :=
            (List.prefix_or_prefix_of_prefix hprefix (List.prefix_append f _)).resolve_right hwhole
          have hlt : (arrived limit t x w).length < f.length := by
            refine lt_of_le_of_ne hpart.length_le fun heq => hwhole ?_
            exact (hpart.eq_of_length heq).symm ▸ List.prefix_rfl
          obtain ⟨header, payload, hrecv⟩ := hf
          have hshort : recvMessage limit (t.ending.raises x.timeout) (arrived limit t x w) =
              .failed (t.ending.raises x.timeout) (arrived limit t x w).length := by
            have h : recvMessage limit (t.ending.raises x.timeout)
                (f.take (arrived limit t x w).length) =
                  .failed (t.ending.raises x.timeout) (arrived limit t x w).length :=
              recvMessage_of_short hrecv hlt
            rwa [← List.prefix_iff_eq_take.mp hpart] at h
          have hkept := hkeeps _ (hfailed _ _ (hr.symm.trans hshort))
          by_cases htimeout : t.ending.raises x.timeout = .timeoutError
          · rcases hcalm.reads htimeout with hnone | ⟨g, hg, hgw⟩
            · rw [hnone]
              simpa using hheard
            · have heq := IsReply.eq_of_starts hg ⟨header, payload, hrecv⟩ (hgw.trans hpart)
                List.prefix_rfl
              exact absurd (heq ▸ hgw) hwhole
          · rw [not_keeps_of_isOSError (isOSError_raises t.ending x.timeout) htimeout] at hkept
            contradiction

end Exchange

/-! ## Runs -/

/-- An inference leaves the socket as its exchange does, and raises what its exchange raises. -/
theorem infer_run (limit : Nat) (t : Turn) (payload : Bytes) (shape : List Json)
    (timeout : Int) (w : NativeWorker) :
    let x : Exchange := ⟨NativeWorker.inferHeader w.requests shape w.generation, payload,
      ⟨w.requests, w.generation⟩, timeout⟩
    let r := w.infer (t.env limit) payload shape w.generation timeout
    r.2.channel = (x.run limit t w.takeId).2.channel ∧
      ∀ e, (x.run limit t w.takeId).1 = .error e → r.1 = .error e := by
  intro x r
  have hr : r = w.infer (t.env limit) payload shape w.generation timeout := rfl
  unfold NativeWorker.infer at hr
  dsimp only at hr
  generalize hx : x.run limit t w.takeId = ended
  rw [show w.takeId.exchange (t.env limit) (NativeWorker.inferHeader w.requests shape
    w.generation) payload ⟨w.requests, w.generation⟩ timeout = ended from hx] at hr
  obtain ⟨result, w'⟩ := ended
  cases result with
  | error e =>
      rw [hr]
      exact ⟨rfl, fun e' he => congrArg _ (Except.error.inj he)⟩
  | ok rep =>
      refine ⟨?_, fun e he => by contradiction⟩
      rw [hr]
      dsimp only
      split
      · rfl
      · split <;> rfl

/-- A load leaves the socket as its exchange does, and raises what its exchange raises. -/
theorem load_run (limit : Nat) (t : Turn) (artifactPath : PyStr) (generation : Int)
    (servingDigest : PyStr) {classCount : Int} (hpos : ¬ classCount ≤ 0) (timeout : Int)
    (w : NativeWorker) :
    let x : Exchange := ⟨NativeWorker.loadHeader w.requests artifactPath generation servingDigest
      classCount, [], ⟨w.requests, generation⟩, timeout⟩
    let r := w.load (t.env limit) artifactPath generation servingDigest classCount timeout
    r.2.channel = (x.run limit t w.takeId).2.channel ∧
      ∀ e, (x.run limit t w.takeId).1 = .error e → r.1 = .error e := by
  intro x r
  have hr : r = NativeWorker.loadEnds generation ⟨w.requests, generation⟩
      (x.run limit t w.takeId) :=
    NativeWorker.load_of_pos _ _ _ _ (Int.not_le.mp hpos) _ _
  rw [hr]
  refine ⟨(NativeWorker.loadEnds_worker _ _ _).1, fun e he => ?_⟩
  generalize x.run limit t w.takeId = ended at he
  obtain ⟨result, w'⟩ := ended
  cases he
  rfl

namespace Link

variable {limit : Nat} {l l' : Link} {label : Label}

/-- A step that makes an exchange leaves the socket as the exchange does; the worker is kept only
after exchanges that keep it. -/
theorem step_exchange {t : Turn} {x : Exchange} {es : List Unit}
    (h : l.step limit label = some (l', es)) (hx : l.exchangeOf label = some (t, x)) :
    l'.native.channel = (x.run limit t l.native.takeId).2.channel ∧
      l'.written = l.written ++ sentBytes limit t x l.native.takeId ∧
      l'.heard = l.heard ++ readBytes limit t x l.native.takeId ∧
      (l'.kept = true →
        ∀ e, (x.run limit t l.native.takeId).1 = .error e → keepsRaise e = true) := by
  unfold step at h
  split at h
  · contradiction
  · cases label with
    | load t' artifactPath generation servingDigest classCount timeout =>
        have hcarry := hx
        dsimp only [exchangeOf] at hx
        split at hx
        · contradiction
        · rename_i hpos
          obtain ⟨rfl, rfl⟩ := Prod.mk.inj (Option.some.inj hx)
          obtain ⟨hchannel, hraises⟩ :=
            load_run limit t' artifactPath generation servingDigest hpos timeout l.native
          obtain ⟨rfl, -⟩ := Prod.mk.inj (Option.some.inj h)
          rw [carry, hcarry]
          refine ⟨hchannel, rfl, rfl, fun hkept e he => ?_⟩
          dsimp only at hkept
          rw [hraises e he] at hkept
          contradiction
    | infer t' payload shape timeout =>
        have hcarry := hx
        obtain ⟨rfl, rfl⟩ := Prod.mk.inj (Option.some.inj hx)
        obtain ⟨hchannel, hraises⟩ := infer_run limit t' payload shape timeout l.native
        dsimp only at h
        split at h
        · contradiction
        · obtain ⟨rfl, -⟩ := Prod.mk.inj (Option.some.inj h)
          rw [carry, hcarry]
          refine ⟨hchannel, rfl, rfl, fun hkept e he => ?_⟩
          dsimp only at hkept
          rw [hraises e he] at hkept
          exact hkept
    | late writes => contradiction

/-- A step that makes no exchange writes and reads nothing. -/
theorem step_quiet {es : List Unit} (h : l.step limit label = some (l', es))
    (hx : l.exchangeOf label = none) :
    l'.written = l.written ∧ l'.heard = l.heard ∧
      l.native.channel.unread <+: l'.native.channel.unread := by
  unfold step at h
  split at h
  · contradiction
  · cases label with
    | load t artifactPath generation servingDigest classCount timeout =>
        have hneg : classCount ≤ 0 := by
          by_contra hpos
          rw [exchangeOf, if_neg hpos] at hx
          exact Option.some_ne_none _ hx
        obtain ⟨rfl, -⟩ := Prod.mk.inj (Option.some.inj h)
        rw [carry, hx]
        refine ⟨rfl, rfl, [], ?_⟩
        dsimp only
        rw [NativeWorker.load_of_nonpos _ _ _ _ hneg, List.append_nil]
    | infer t payload shape timeout => contradiction
    | late writes =>
        obtain ⟨rfl, -⟩ := Prod.mk.inj (Option.some.inj h)
        exact ⟨rfl, rfl, unread_prefix_writes _ _⟩

/-- A step adds to what the child wrote. -/
theorem spoken_grows {es : List Unit} (h : l.step limit label = some (l', es)) :
    l.spoken <+: l'.spoken := by
  unfold spoken
  cases hx : l.exchangeOf label with
  | none =>
      obtain ⟨-, hheard, hunread⟩ := step_quiet h hx
      rw [hheard, List.prefix_append_right_inj]
      exact hunread.map Prod.fst
  | some tx =>
      obtain ⟨t, x⟩ := tx
      obtain ⟨hchannel, -, hheard, -⟩ := step_exchange h hx
      rw [hheard, hchannel, List.append_assoc, List.prefix_append_right_inj]
      exact spoken_run limit t x l.native.takeId

/-- **A step whose timeouts fire between frames** leaves whole frames behind a worker that is
kept. -/
theorem step_whole {es : List Unit} (h : l.step limit label = some (l', es))
    (hcalm : l.Calm limit label) (hwhole : l.Whole limit) (hkept : l'.kept = true)
    (htalks : Talks limit l'.spoken) : l'.Whole limit := by
  cases hx : l.exchangeOf label with
  | none =>
      obtain ⟨hwritten, hheard, -⟩ := step_quiet h hx
      exact ⟨hwritten ▸ hwhole.written, hheard ▸ hwhole.heard⟩
  | some tx =>
      obtain ⟨t, x⟩ := tx
      obtain ⟨hchannel, hwritten, hheard, hkeeps⟩ := step_exchange h hx
      rw [spoken, hheard, hchannel, List.append_assoc] at htalks
      obtain ⟨hframes, hreplies⟩ := exchange_whole hwhole.written hwhole.heard
        (hcalm t x hx) (hkeeps hkept) htalks
      exact ⟨hwritten ▸ hframes, hheard ▸ hreplies⟩

/-- Nothing went over the socket of a spawned worker. -/
theorem spawned_whole : ({} : Link).Whole limit where
  written := ⟨[], fun _ hf => absurd hf List.not_mem_nil, rfl⟩
  heard := ⟨[], fun _ hf => absurd hf List.not_mem_nil, rfl⟩

/-- **A kept worker is left with whole frames**: in every run whose timeouts fire between
frames, on a child that writes replies one after another, the supervisor has written whole
requests and read whole replies as long as it keeps the worker. -/
theorem kept_link_whole {labels : List Label} {es : List Unit}
    (hcalm : (machine limit).Along (Calm limit) labels {})
    (hrun : (machine limit).exec labels {} = some (l, es)) (hkept : l.kept = true)
    (htalks : Talks limit l.spoken) : l.Whole limit := by
  have hinvariant := (machine limit).exec_events_of_along (P := fun _ => True)
    (I := fun l => l.kept = true → Talks limit l.spoken → l.Whole limit)
    (G := Calm limit) (fun s a s' es hs hstep h => ?_) (fun _ _ => spawned_whole) hcalm hrun
  · exact hinvariant.1 hkept htalks
  · refine ⟨fun hkept' htalks' => ?_, fun _ _ => trivial⟩
    have hkept : s.kept = true := by
      by_contra hnot
      have hdropped : s.kept = false := by simpa using hnot
      have hnone : s.step limit a = some (s', es) := h
      unfold step at hnone
      rw [hdropped] at hnone
      contradiction
    exact step_whole h hstep (hs hkept (htalks'.of_starts (spoken_grows h))) hkept' htalks'

/-! ## Timeouts between frames and within one -/

/-- A clean load. -/
def cleanLoad : Label :=
  .load { writes := ReplyChannel.reply loadedReply } (py "/data/artifacts/k/model.rai") 1
    (py "srv") 80 loadTimeout

/-- An inference during which the child writes these bytes, and no more before the timeout. -/
def slowInfer (writes : Bytes) : Label :=
  .infer { writes := writes.map fun b => ⟨b, false⟩ } [0, 0, 0, 0] [.int 1] 10000000

theorem isReply_loadedReply : IsReply 1000 loadedReply := by
  obtain ⟨rep, out, -, hrecv⟩ := loadedReply_message
  exact ⟨rep, out, hrecv _⟩

theorem isReply_firstReply : IsReply 1000 firstReply := by
  obtain ⟨rep, out, -, -, hrecv⟩ := firstReply_message
  exact ⟨rep, out, hrecv _⟩

/-- The clean load reads a whole reply. -/
theorem cleanLoad_calm : Calm 1000 {} cleanLoad := by
  intro t x hx
  have hsending : ((({} : Link).exchangeOf cleanLoad).map fun tx => tx.1.sending) =
      some .sent := rfl
  have harrived : ((({} : Link).exchangeOf cleanLoad).map fun tx =>
      arrived 1000 tx.1 tx.2 ({} : Link).native.takeId) = some loadedReply := by
    decide +kernel
  rw [hx, Option.map_some] at hsending harrived
  constructor
  · rw [Option.some.inj hsending]
    exact fun h => by contradiction
  · rw [Option.some.inj harrived]
    exact fun _ => Or.inr ⟨loadedReply, isReply_loadedReply, List.prefix_rfl⟩

/-- An inference that times out before its reply begins leaves whole frames. -/
theorem kept_link_whole_slow :
    ∃ l es, (machine 1000).exec [cleanLoad, slowInfer []] {} = some (l, es) ∧
      l.kept = true ∧ l.Whole 1000 := by
  have hends : (machine 1000).endsIn [cleanLoad, slowInfer []] {}
      (fun l => l.kept && l.spoken == loadedReply) = true := by
    decide +kernel
  obtain ⟨l, es, hrun, hlast⟩ := (machine 1000).exists_exec_of_endsIn hends
  obtain ⟨hkept, hspoken⟩ := Bool.and_eq_true_iff.mp hlast
  have htalks : Talks 1000 l.spoken := by
    rw [eq_of_beq hspoken]
    exact ⟨[loadedReply], by simpa using isReply_loadedReply, by simp⟩
  refine ⟨l, es, hrun, hkept, kept_link_whole ?_ hrun hkept htalks⟩
  refine ⟨cleanLoad_calm, fun s' es' hstep => ?_⟩
  have hempty : (step 1000 {} cleanLoad).all (fun r => r.1.native.channel.unread.isEmpty) =
      true := by
    decide +kernel
  have hstep' : step 1000 {} cleanLoad = some (s', es') := hstep
  rw [hstep'] at hempty
  refine ⟨fun t x hx => ?_, fun _ _ _ => trivial⟩
  obtain ⟨rfl, rfl⟩ := Prod.mk.inj (Option.some.inj hx)
  refine ⟨fun h => absurd h.symm (Option.some_ne_none _), fun _ => Or.inl ?_⟩
  have hunread : s'.native.channel.unread = [] := by simpa using hempty
  show (s'.native.channel.unread.map Prod.fst) = []
  rw [hunread]
  rfl

/-- **A timeout within a reply** keeps the worker and loses the part that was read. -/
theorem half_reply_left :
    ¬ ∀ (limit : Nat) (labels : List Label) (l : Link) (es : List Unit),
      (machine limit).exec labels {} = some (l, es) → l.kept = true → Talks limit l.spoken →
        l.Whole limit := by
  intro h
  have hends : (machine 1000).endsIn [cleanLoad, slowInfer (firstReply.take 4)] {}
      (fun l => l.kept && (l.heard == loadedReply ++ firstReply.take 4 &&
        l.spoken == loadedReply ++ firstReply.take 4)) = true := by
    decide +kernel
  obtain ⟨l, es, hrun, hlast⟩ := (machine 1000).exists_exec_of_endsIn hends
  simp only [Bool.and_eq_true, beq_iff_eq] at hlast
  obtain ⟨hkept, hheard, hspoken⟩ := hlast
  have hreplies : ∀ f ∈ [loadedReply, firstReply], IsReply 1000 f := by
    simpa using ⟨isReply_loadedReply, isReply_firstReply⟩
  have hprefix : loadedReply ++ firstReply.take 4 <+: [loadedReply, firstReply].flatten := by
    simpa using List.take_prefix 4 firstReply
  have htalks : Talks 1000 l.spoken := by
    rw [hspoken]
    exact ⟨_, hreplies, hprefix⟩
  obtain ⟨replies, hwhole, hflat⟩ := (h 1000 _ l es hrun hkept htalks).heard
  rw [hheard] at hflat
  rw [hflat] at hprefix
  obtain ⟨more, hmore⟩ := eq_append_of_flatten_starts hwhole hreplies hprefix
  have hpos : loadedReply.length ≠ 0 := by decide +kernel
  have hlong : 4 < firstReply.length := by decide +kernel
  have hlength := congrArg List.length hflat
  rw [List.length_append, List.length_take_of_le (Nat.le_of_lt hlong)] at hlength
  rcases replies with _ | ⟨f, _ | ⟨g, rest⟩⟩
  · exact hpos (Nat.eq_zero_of_add_eq_zero_right hlength)
  · obtain rfl := (List.cons.inj hmore).1
    rw [List.flatten_cons, List.flatten_nil, List.append_nil] at hlength
    exact absurd hlength (Nat.ne_of_gt (Nat.lt_add_of_pos_right (by decide)))
  · obtain ⟨rfl, htail⟩ := List.cons.inj hmore
    obtain ⟨rfl, -⟩ := List.cons.inj htail
    rw [List.flatten_cons, List.flatten_cons, List.length_append, List.length_append] at hlength
    have hcut := Nat.add_left_cancel hlength
    exact absurd hcut (Nat.ne_of_lt (Nat.lt_of_lt_of_le hlong (Nat.le_add_right _ _)))

end Link

end FrigateXdna
