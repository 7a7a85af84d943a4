import FrigateXdna.Native.Bounds

/-!
# Leaving the loop, and staying at the boundaries of the messages

Whether the loop goes on after a failed receive is decided on the text of the error: it
goes on when the text names a header or a payload.  Every failed read has such a text, and
so have two refusals that leave a part of the message in the socket.

Main results:

- Theorem {lit}`leaves_iff`: the loop ends exactly when a signal comes, or when a message
  that is still in the socket makes it leave.
- Theorem {lit}`frame_sync`: the loop stays at the boundaries of the messages when each
  that it reaches is read with its declared length and has neither too long a header nor too
  long a payload; and only then, where all are read as declared.
-/

namespace FrigateXdna
namespace Native

open Python Library

variable {F : Type} {A : Arith F} {sort : Sorter F}

/-! ## Leaving -/

/-- Whether a receive makes the loop leave. -/
def Received.stops (r : Received) : Bool :=
  match r.err with
  | some err => !survives err
  | none => decide (r.header.messageType = .shutdown)

theorem stops_of_err {r : Received} {err : Bytes} (h : r.err = some err) :
    r.stops = !survives err := by
  rw [Received.stops, h]

theorem stops_of_message {r : Received} (h : r.err = none) :
    r.stops = decide (r.header.messageType = .shutdown) := by
  rw [Received.stops, h]

/-- Handling a message reads nothing outside the buffer. -/
theorem Handling.fault_notMem {w w' : Worker F} {hdr : Header} {es : List Event}
    (h : Handling w hdr w' es) : Event.fault ∉ es := by
  cases h <;> simp

/-- The end of an inference leaves the loop only with a read outside the buffer. -/
theorem fault_of_finishInfer_leave {w : Worker F} {hdr : Header} {outbuf : List F}
    (h : (finishInfer A sort w hdr outbuf).leave = true) :
    Event.fault ∈ (finishInfer A sort w hdr outbuf).events := by
  unfold finishInfer at h ⊢
  dsimp only at h ⊢
  split at h
  · contradiction
  · rename_i hfinite
    rw [if_neg hfinite]
    split at h
    · simp
    · contradiction

/-- So does an inference. -/
theorem fault_of_handleInfer_leave {env : Env F} {w : Worker F} {hdr : Header}
    {payload : Bytes} (h : (handleInfer A sort env w hdr payload).leave = true) :
    Event.fault ∈ (handleInfer A sort env w hdr payload).events := by
  unfold handleInfer at h ⊢
  dsimp only at h ⊢
  split at h
  · contradiction
  · rename_i hgeneration
    rw [if_neg hgeneration]
    split at h
    · contradiction
    · rename_i hloaded
      rw [if_neg hloaded]
      split at h
      · contradiction
      · split at h
        · contradiction
        · rename_i hspec hfinite
          rw [if_neg hfinite]
          split at h
          · contradiction
          · rename_i hshape
            rw [if_neg hshape]
            split at h
            · contradiction
            · rename_i hcount
              rw [if_neg hcount]
              split at h
              · contradiction
              · exact fault_of_finishInfer_leave h

/-- A load never leaves the loop. -/
theorem handleLoad_leave (env : Env F) (w : Worker F) (hdr : Header) :
    (handleLoad A env w hdr).leave = false := by
  unfold handleLoad
  dsimp only
  split_ifs
  · rfl
  · rfl
  · split
    · rfl
    · split_ifs <;> rfl

/-- **Only a {lit}`SHUTDOWN` leaves the loop.** -/
theorem handle_leave (A : Arith F) (sort : Sorter F) (env : Env F) {w : Worker F}
    (hw : Ready w) {hdr : Header} (payload : Bytes)
    (hversion : hdr.protocolVersion = protocolVersion) :
    (handle A sort env w hdr payload).leave = decide (hdr.messageType = .shutdown) := by
  unfold handle
  rw [if_neg (not_not.mpr hversion)]
  split
  · simp [*]
  · rename_i htype
    rw [handleLoad_leave, htype]
    rfl
  · simp [*]
  · rename_i htype
    have hstay : (handleInfer A sort env w hdr payload).leave = false := by
      rw [Bool.eq_false_iff]
      intro hleave
      exact (handleInfer_cases env hw payload htype).fault_notMem
        (fault_of_handleInfer_leave hleave)
    rw [hstay, htype]
    rfl
  · rename_i hshutdown _ _ _
    simpa using hshutdown

/-- A message that is received has the protocol version. -/
theorem recvMessage_version {stream : Bytes} (h : (recvMessage stream).err = none) :
    (recvMessage stream).header.protocolVersion = protocolVersion := by
  have hpayload : ∀ js rest, (recvPayload js rest).err = none →
      (recvPayload js rest).header.protocolVersion = protocolVersion := by
    intro js rest h
    unfold recvPayload at h ⊢
    split at h
    · contradiction
    · split at h
      · contradiction
      · rename_i hvalid
        split at h
        · contradiction
        · exact (validateHeader_eq_none_iff.mp hvalid).1
  unfold recvMessage at h ⊢
  split at h
  · contradiction
  · dsimp only at h ⊢
    split at h
    · contradiction
    · rename_i hbound
      rw [if_neg hbound]
      split at h
      · contradiction
      · exact hpayload _ _ h

/-- **One round without a signal**: the loop leaves, or goes on with what the receive
left. -/
theorem round_running (A : Arith F) (sort : Sorter F) {l : Loop F} (label : Label F)
    (hw : Ready l.worker) (hrunning : l.running = true) (hbefore : label.termBefore = false)
    (hafter : label.termAfter = false) :
    (round A sort l label).1.running = !(recvMessage l.stream).stops ∧
      (round A sort l label).1.stream = (recvMessage l.stream).rest := by
  unfold round
  simp only [hbefore, hafter, Bool.false_eq_true, if_false, Bool.false_or]
  split
  · rename_i err herr
    rw [stops_of_err herr]
    cases hlives : survives err <;> simp [hrunning]
  · rename_i herr
    rw [stops_of_message herr, handle_leave A sort _ hw _ (recvMessage_version herr)]
    exact ⟨rfl, rfl⟩

/-! ## Whether the loop ends -/

/-- The bytes that are left after some receives. -/
def streamAfter (n : Nat) (stream : Bytes) : Bytes :=
  (fun s => (recvMessage s).rest)^[n] stream

/-- A message that is still in the socket makes the loop leave. -/
def LeavesOn (stream : Bytes) : Prop :=
  ∃ n, (recvMessage (streamAfter n stream)).stops = true

/-- The label of a round when a signal has come before the given look at {lit}`g_term`,
or does not come. -/
def labelAt (signal : Option Nat) (env : Nat → Env F) (k : Nat) : Label F where
  termBefore := signal.any fun t => decide (t ≤ 2 * k)
  termAfter := signal.any fun t => decide (t ≤ 2 * k + 1)
  env := env k

/-- The first labels. -/
def firstLabels (label : Nat → Label F) (n : Nat) : List (Label F) :=
  (List.range n).map label

/-- The loop ends after finitely many rounds. -/
def Leaves (A : Arith F) (sort : Sorter F) (label : Nat → Label F) (l : Loop F) : Prop :=
  ∃ n t es, (machine A sort).exec (firstLabels label n) l = some (t, es) ∧ t.running = false

theorem streamAfter_succ (n : Nat) (stream : Bytes) :
    streamAfter (n + 1) stream = (recvMessage (streamAfter n stream)).rest :=
  Function.iterate_succ_apply' _ n stream

theorem firstLabels_succ (label : Nat → Label F) (n : Nat) :
    firstLabels label (n + 1) = firstLabels label n ++ [label n] := by
  simp [firstLabels, List.range_succ]

/-- A run of one round. -/
theorem exec_one (A : Arith F) (sort : Sorter F) {l : Loop F} (hrunning : l.running = true)
    (label : Label F) : (machine A sort).exec [label] l =
      some ((round A sort l label).1, (round A sort l label).2) := by
  simp [Machine.exec, machine, hrunning]

/-- The step after the first rounds. -/
theorem exec_firstLabels_succ {label : Nat → Label F} {n : Nat} {l t : Loop F}
    {es : List Event} :
    (machine A sort).exec (firstLabels label (n + 1)) l = some (t, es) ↔
      ∃ m past, (machine A sort).exec (firstLabels label n) l = some (m, past) ∧
        m.running = true ∧ (round A sort m (label n)).1 = t ∧
          es = past ++ (round A sort m (label n)).2 := by
  rw [firstLabels_succ, Machine.exec_append]
  constructor
  · rintro ⟨m, past, last, hfirst, hlast, rfl⟩
    obtain ⟨s', one, rest, hstep, hrest, rfl⟩ := (Machine.exec_cons_eq_some _).mp hlast
    simp only [Machine.exec_nil, Option.some.injEq, Prod.mk.injEq] at hrest
    obtain ⟨rfl, rfl⟩ := hrest
    simp only [machine, Option.ite_none_right_eq_some, Option.some.injEq] at hstep
    obtain ⟨hrunning, hround⟩ := hstep
    exact ⟨m, past, hfirst, hrunning, by rw [hround], by rw [hround, List.append_nil]⟩
  · rintro ⟨m, past, hfirst, hrunning, rfl, rfl⟩
    exact ⟨m, past, _, hfirst, exec_one A sort hrunning _, rfl⟩

/-- A loop that does not end goes on after any number of rounds. -/
theorem running_of_not_leaves {label : Nat → Label F} {l : Loop F} (hrunning : l.running = true)
    (h : ¬ Leaves A sort label l) (n : Nat) :
    ∃ t es, (machine A sort).exec (firstLabels label n) l = some (t, es) ∧
      t.running = true := by
  induction n with
  | zero => exact ⟨l, [], rfl, hrunning⟩
  | succ n ih =>
      obtain ⟨m, past, hfirst, hgoes⟩ := ih
      have hnext : (machine A sort).exec (firstLabels label (n + 1)) l =
          some ((round A sort m (label n)).1, past ++ (round A sort m (label n)).2) :=
        exec_firstLabels_succ.mpr ⟨m, past, hfirst, hgoes, rfl, rfl⟩
      refine ⟨_, _, hnext, ?_⟩
      rw [← Bool.not_eq_false]
      exact fun hleft => h ⟨n + 1, _, _, hnext, hleft⟩

/-- A worker is ready after any number of rounds. -/
theorem ready_exec {labels : List (Label F)} {l t : Loop F} {es : List Event}
    (hw : Ready l.worker) (hrun : (machine A sort).exec labels l = some (t, es)) :
    Ready t.worker := by
  refine (machine A sort).exec_invariant (I := fun l => Ready l.worker) ?_ hw hrun
  intro s label s' es hs hstep
  simp only [machine, Option.ite_none_right_eq_some, Option.some.injEq] at hstep
  obtain ⟨-, hround⟩ := hstep
  have hcases := round_cases A sort hs label
  rw [hround] at hcases
  rcases hcases with ⟨hworker, -⟩ | hhandling
  · dsimp only at hworker
    rwa [hworker]
  · exact hhandling.ready

/-- Without a signal, the loop follows the receives. -/
theorem stream_exec {env : Nat → Env F} {w : Worker F} (hw : Ready w) {stream : Bytes}
    {n : Nat} {t : Loop F} {es : List Event}
    (hrun : (machine A sort).exec (firstLabels (labelAt none env) n)
      { worker := w, stream } = some (t, es)) :
    t.stream = streamAfter n stream ∧ (t.running = false → LeavesOn stream) := by
  induction n generalizing t es with
  | zero =>
      obtain ⟨rfl, -⟩ := Prod.mk.inj (Option.some.inj hrun)
      exact ⟨rfl, fun h => by contradiction⟩
  | succ n ih =>
      obtain ⟨m, past, hfirst, hrunning, rfl, -⟩ := exec_firstLabels_succ.mp hrun
      obtain ⟨hstream, -⟩ := ih hfirst
      obtain ⟨hgoes, hrest⟩ :=
        round_running A sort (labelAt none env n) (ready_exec hw hfirst) hrunning rfl rfl
      refine ⟨by rw [hrest, hstream, streamAfter_succ], fun hleft => ⟨n, ?_⟩⟩
      rw [← hstream]
      simpa [hgoes] using hleft

/-- Without a signal and without such a message, the loop goes on for ever. -/
theorem not_leaves {w : Worker F} (hw : Ready w) {stream : Bytes} (h : ¬ LeavesOn stream)
    (env : Nat → Env F) : ¬ Leaves A sort (labelAt none env) { worker := w, stream } := by
  rintro ⟨n, t, es, hrun, hleft⟩
  exact h ((stream_exec hw hrun).2 hleft)

/-- **The loop ends exactly when** a signal comes, or a message that is still in the
socket makes it leave: a {lit}`SHUTDOWN`, or one that is refused with a text that names
neither a header nor a payload.  Every read after these bytes fails. -/
theorem leaves_iff (A : Arith F) (sort : Sorter F) {w : Worker F} (hw : Ready w)
    (stream : Bytes) (env : Nat → Env F) (signal : Option Nat) :
    Leaves A sort (labelAt signal env) { worker := w, stream } ↔
      signal.isSome = true ∨ LeavesOn stream := by
  constructor
  · intro h
    cases signal with
    | some _ => exact Or.inl rfl
    | none => exact Or.inr (by_contra fun hno => not_leaves hw hno env h)
  · intro h
    by_contra hno
    have hgoes := running_of_not_leaves (l := { worker := w, stream }) rfl hno
    cases signal with
    | some look =>
        obtain ⟨t, es, hrun, hrunning⟩ := hgoes (look + 1)
        obtain ⟨m, past, -, -, rfl, -⟩ := exec_firstLabels_succ.mp hrun
        have hterm : (labelAt (some look) env look).termBefore = true := by
          simp [labelAt]
          omega
        simp [round, hterm] at hrunning
    | none =>
        obtain ⟨n, hstops⟩ : LeavesOn stream := by simpa using h
        obtain ⟨t, es, hrun, hrunning⟩ := hgoes (n + 1)
        obtain ⟨m, past, hfirst, hbefore, rfl, -⟩ := exec_firstLabels_succ.mp hrun
        have hround := (round_running A sort (labelAt none env n) (ready_exec hw hfirst)
          hbefore rfl rfl).1
        rw [(stream_exec hw hfirst).1, hstops] at hround
        rw [hround] at hrunning
        contradiction

/-- The texts of the failed reads name a header or a payload. -/
theorem survives_failed_read {err : Bytes}
    (h : err ∈ [cstr "read header_len failed", cstr "read header failed",
      cstr "read payload failed"]) : survives err = true := by
  simp only [List.mem_cons, List.not_mem_nil, or_false] at h
  rcases h with rfl | rfl | rfl <;> decide

/-- At the end of the socket nothing makes the loop leave. -/
theorem not_leavesOn_nil : ¬ LeavesOn [] := by
  rintro ⟨n, hstops⟩
  have hnil : streamAfter n [] = [] := by
    clear hstops
    induction n with
    | zero => rfl
    | succ n ih => rw [streamAfter_succ, ih, recvMessage_nil]
  rw [hnil, stops_of_err (congrArg Received.err recvMessage_nil),
    survives_failed_read List.mem_cons_self] at hstops
  contradiction

/-- A worker whose peer is gone, right after the start, goes on for ever. -/
theorem abandoned_worker_stays :
    ¬ Leaves sampleArith sampleSort (labelAt none fun _ => sampleLabel.env)
      { worker := Worker.start (1 / 4) (9 / 20), stream := [] } :=
  not_leaves (watched_start _ _).ready not_leavesOn_nil _

/-- An inference without a tensor, and then a request to shut down. -/
def lastRequests : Bytes :=
  frame (cstr "\x7b\"message_type\": \"INFER\", \"protocol_version\": 1\x7d") [] ++
    frame (cstr "\x7b\"message_type\": \"SHUTDOWN\", \"protocol_version\": 1\x7d") []

/-- A worker that is asked to shut down leaves, without a signal. -/
theorem leaves_iff_shutdown :
    Leaves sampleArith sampleSort (labelAt none fun _ => sampleLabel.env)
      { worker := Worker.start (1 / 4) (9 / 20), stream := lastRequests } :=
  (leaves_iff sampleArith sampleSort (watched_start (1 / 4) (9 / 20)).ready lastRequests _
    none).mpr (.inr ⟨1, by decide +kernel⟩)

/-! ## Messages in a stream -/

/-- What the worker reads as the payload length of a header: the number behind the first
{lit}`"payload_length"` of the text, whatever that stands for there. -/
def readLength (js : Bytes) : Nat :=
  (extractUint64 js (cstr "payload_length")).getD 0

/-- A well-framed message: a header whose length fits the prefix, and a payload.  Its
length is what the peer declares; what the worker reads is another matter. -/
structure Frame where
  js : Bytes
  payload : Bytes
  header_lt : js.length < 2 ^ 32

namespace Frame

/-- The bytes of a message. -/
def bytes (f : Frame) : Bytes :=
  frame f.js f.payload

/-- Whether the loop leaves on the message. -/
def stops (f : Frame) : Bool :=
  (recvMessage f.bytes).stops

/-- The worker reads the length that the peer declares. -/
def ReadAsDeclared (f : Frame) : Prop :=
  readLength f.js = f.payload.length

/-- A header over its bound, or a payload over the bound of its type. -/
def Oversized (f : Frame) : Prop :=
  f.js.length > maxHeaderBytes ∨
    f.payload.length > payloadLimit (parseMessageType (extractType f.js))

/-- The message can be read, or refused, as a whole. -/
def Fits (f : Frame) : Prop :=
  f.ReadAsDeclared ∧ ¬ f.Oversized

instance (f : Frame) : Decidable f.ReadAsDeclared :=
  inferInstanceAs (Decidable (_ = _))

instance (f : Frame) : Decidable f.Oversized :=
  inferInstanceAs (Decidable (_ ∨ _))

instance (f : Frame) : Decidable f.Fits :=
  inferInstanceAs (Decidable (_ ∧ _))

end Frame

/-- The messages in front of the first one on which the loop leaves. -/
def reached (frames : List Frame) : List Frame :=
  frames.takeWhile fun f => !f.stops

/-- The bytes of a list of messages. -/
def wire (frames : List Frame) : Bytes :=
  frames.flatMap Frame.bytes

/-- The rest of a stream starts at a boundary of its messages. -/
def AtBoundary (frames : List Frame) (rest : Bytes) : Prop :=
  ∃ k, rest = wire (frames.drop k)

/-- A round that reports an error and goes on leaves the socket at a boundary. -/
def KeepsSync (A : Arith F) (sort : Sorter F) (frames : List Frame) (l : Loop F)
    (label : Label F) : Prop :=
  ∀ request reply p, Event.send request reply p ∈ (round A sort l label).2 →
    reply.errorCode ≠ [] → (round A sort l label).1.running = true →
      AtBoundary frames (round A sort l label).1.stream

/-! ## One message -/

/-- What a header says is what {lit}`json_to_header` reads. -/
theorem jsonToHeader_payloadLength {js : Bytes} {h : Header}
    (hparse : jsonToHeader js = (h, none)) :
    h.payloadLength = readLength js ∧
      h.messageType = parseMessageType (extractType js) := by
  unfold jsonToHeader at hparse
  split at hparse
  · cases hparse
  · split at hparse
    · cases hparse
    · dsimp only at hparse
      split at hparse
      · cases hparse
      · cases hparse
        exact ⟨rfl, rfl⟩

/-- A header that cannot be read makes the loop leave. -/
theorem survives_of_jsonToHeader {js err : Bytes} {h : Header}
    (hlen : js.length ≤ maxHeaderBytes) (hparse : jsonToHeader js = (h, some err)) :
    survives err = false := by
  unfold jsonToHeader at hparse
  rw [if_neg (by omega)] at hparse
  split at hparse
  · cases hparse
    decide
  · dsimp only at hparse
    split at hparse
    · cases hparse
      decide
    · cases hparse

/-- So does a header that is refused for anything but its payload. -/
theorem survives_of_validateHeader {h : Header} {err : Bytes}
    (hrefused : validateHeader h = some err) :
    survives err = false ∨ err = cstr "payload_length exceeds bound" ∧
      h.payloadLength > payloadLimit h.messageType := by
  unfold validateHeader at hrefused
  split_ifs at hrefused <;> cases hrefused
  all_goals first
    | exact Or.inl (by decide)
    | exact Or.inr ⟨rfl, by assumption⟩

/-- What a receive makes of a message, with what follows it: it makes the loop leave; or
it is too large, and the loop goes on inside it; or the loop goes on behind it. -/
inductive Outcome (f : Frame) (more : Bytes) (r : Received) : Prop
  | leaves (hstops : r.stops = true) (hframe : f.stops = true)
  | inside (mid : Bytes) (hoversized : f.Oversized) (hframe : f.stops = false)
      (hgoes : r.stops = false) (herr : r.err.isSome = true) (hrest : r.rest = mid ++ more)
      (hmid : mid ≠ []) (hshort : mid.length < f.bytes.length)
  | behind (hfits : ¬ f.Oversized) (hframe : f.stops = false) (hgoes : r.stops = false)
      (hrest : r.rest = more)

/-- A receive that has the same outcome whatever follows the message. -/
theorem Frame.stops_of_forall {f : Frame} {r : Bytes → Received}
    (h : ∀ more, recvMessage (f.bytes ++ more) = r more) : f.stops = (r []).stops := by
  unfold Frame.stops
  rw [← h [], List.append_nil]

/-- A message whose length prefix is refused. -/
theorem outcome_of_length {f : Frame} (more : Bytes) (hread : f.ReadAsDeclared)
    (hbound : f.js.length = 0 ∨ f.js.length > maxHeaderBytes) :
    Outcome f more (recvMessage (f.bytes ++ more)) := by
  have hany : ∀ more, recvMessage (f.bytes ++ more) =
      { err := some (cstr "header length out of bounds"),
        rest := f.js ++ (f.payload ++ more) } := by
    intro more
    rw [Frame.bytes, recvMessage_frame f.header_lt, if_pos hbound]
  have hlength : f.bytes.length = 4 + (f.js.length + f.payload.length) := by
    simp [Frame.bytes, frame, packLength_length]
  have hsurvives : survives (cstr "header length out of bounds") = true := by decide
  have hstay : ∀ more, (recvMessage (f.bytes ++ more)).stops = false := by
    intro more
    rw [stops_of_err (congrArg Received.err (hany more)), hsurvives]
    rfl
  have hgoes := hstay more
  have hframe : f.stops = false := by
    rw [Frame.stops, ← List.append_nil f.bytes]
    exact hstay []
  rcases Nat.eq_zero_or_pos f.js.length with hzero | hpos
  · have hjs : f.js = [] := List.eq_nil_of_length_eq_zero hzero
    have hread0 : readLength f.js = 0 := by
      rw [hjs]
      decide
    have hpayload : f.payload = [] :=
      List.eq_nil_of_length_eq_zero (hread.symm.trans hread0)
    refine .behind ?_ hframe hgoes (by rw [hany more, hjs, hpayload]; rfl)
    rw [Frame.Oversized, hpayload, hzero]
    simp
  · have hlarge : f.js.length > maxHeaderBytes := by omega
    refine .inside (f.js ++ f.payload) (Or.inl hlarge) hframe hgoes ?_ ?_ ?_ ?_
    · rw [hany more]
      rfl
    · rw [hany more, List.append_assoc]
    · exact fun hnil => by simp [(List.append_eq_nil_iff.mp hnil).1] at hpos
    · rw [List.length_append, hlength]
      omega

/-- A message that makes the loop leave does so whatever follows it. -/
theorem stops_append {f : Frame} (hstops : f.stops = true) (more : Bytes) :
    (recvMessage (f.bytes ++ more)).stops = true := by
  rw [Frame.stops, ← List.append_nil f.bytes] at hstops
  rw [Frame.bytes, recvMessage_frame f.header_lt] at hstops ⊢
  split at hstops
  · rename_i hbound
    rw [if_pos hbound]
    exact hstops
  · rename_i hbound
    rw [if_neg hbound]
    unfold recvPayload at hstops ⊢
    split at hstops
    · exact hstops
    · split at hstops
      · exact hstops
      · split at hstops
        · -- a payload that is cut off keeps the loop going
          exact absurd hstops (by
            rw [stops_of_err rfl, survives_failed_read (by simp)]
            simp)
        · rename_i taken rest htaken
          rw [List.append_nil] at htaken
          obtain ⟨hsplit, hlen⟩ := Runtime.recvExact_eq_some.mp htaken
          have hmore : readN _ (f.payload ++ more) = some (taken, rest ++ more) :=
            Runtime.recvExact_eq_some.mpr ⟨by rw [hsplit, List.append_assoc], hlen⟩
          rw [hmore]
          exact hstops

/-- **One message** that is read as declared, with what follows it. -/
theorem outcome {f : Frame} (hread : f.ReadAsDeclared) (more : Bytes) :
    Outcome f more (recvMessage (f.bytes ++ more)) := by
  by_cases hbound : f.js.length = 0 ∨ f.js.length > maxHeaderBytes
  · exact outcome_of_length more hread hbound
  · have hany : ∀ more, recvMessage (f.bytes ++ more) = recvPayload f.js (f.payload ++ more) := by
      intro more
      rw [Frame.bytes, recvMessage_frame f.header_lt, if_neg hbound]
    have hlen : f.js.length ≤ maxHeaderBytes := by omega
    rcases hparse : jsonToHeader f.js with ⟨h, err | err⟩
    · obtain ⟨hlength, htype⟩ := jsonToHeader_payloadLength hparse
      have hdeclared : h.payloadLength = f.payload.length := hlength.trans hread
      rcases hvalid : validateHeader h with _ | err
      · have htaken : ∀ more, readN h.payloadLength (f.payload ++ more) =
            some (f.payload, more) := by
          intro more
          rw [hdeclared]
          exact readN_append f.payload more
        have hall : ∀ more, recvMessage (f.bytes ++ more) =
            { header := h, payload := f.payload, err := none, rest := more } := by
          intro more
          simp only [hany more, recvPayload, hparse, hvalid, htaken more]
        by_cases hshutdown : h.messageType = .shutdown
        · refine .leaves ?_ ?_
          · simp [hall more, Received.stops, hshutdown]
          · simp [Frame.stops_of_forall hall, Received.stops, hshutdown]
        · refine .behind ?_ ?_ ?_ (by rw [hall more])
          · obtain ⟨-, -, -, -, hlimit, -⟩ := validateHeader_eq_none_iff.mp hvalid
            rw [hdeclared, htype] at hlimit
            unfold Frame.Oversized
            omega
          · simp [Frame.stops_of_forall hall, Received.stops, hshutdown]
          · simp [hall more, Received.stops, hshutdown]
      · have hall : ∀ more, recvMessage (f.bytes ++ more) =
            { header := h, err := some err, rest := f.payload ++ more } := by
          intro more
          simp only [hany more, recvPayload, hparse, hvalid]
        rcases survives_of_validateHeader hvalid with hleaves | ⟨rfl, hlimit⟩
        · refine .leaves ?_ ?_
          · simp [hall more, Received.stops, hleaves]
          · simp [Frame.stops_of_forall hall, Received.stops, hleaves]
        · have hlimit' : f.payload.length >
              payloadLimit (parseMessageType (extractType f.js)) := by
            rwa [← hdeclared, ← htype]
          have hsurvives : survives (cstr "payload_length exceeds bound") = true := by decide
          refine .inside f.payload (Or.inr hlimit') ?_ ?_ ?_ (by rw [hall more]) ?_ ?_
          · simp [Frame.stops_of_forall hall, Received.stops, hsurvives]
          · simp [hall more, Received.stops, hsurvives]
          · simp [hall more]
          · intro hnil
            rw [hnil, List.length_nil] at hlimit'
            exact absurd hlimit' (Nat.not_lt_zero _)
          · simp [Frame.bytes, frame, packLength_length]
            omega
    · have hleaves := survives_of_jsonToHeader hlen hparse
      have hall : ∀ more, recvMessage (f.bytes ++ more) =
          { header := h, err := some err, rest := f.payload ++ more } := by
        intro more
        simp only [hany more, recvPayload, hparse]
      refine .leaves ?_ ?_
      · simp [hall more, Received.stops, hleaves]
      · simp [Frame.stops_of_forall hall, Received.stops, hleaves]

/-! ## Streams of messages -/

theorem wire_append (xs ys : List Frame) : wire (xs ++ ys) = wire xs ++ wire ys :=
  List.flatMap_append

@[simp]
theorem wire_cons (f : Frame) (fs : List Frame) : wire (f :: fs) = f.bytes ++ wire fs :=
  rfl

/-- A place inside a message is no boundary. -/
theorem not_atBoundary {before after : List Frame} {f : Frame} {mid : Bytes} (hmid : mid ≠ [])
    (hshort : mid.length < f.bytes.length) :
    ¬ AtBoundary (before ++ f :: after) (mid ++ wire after) := by
  rintro ⟨k, hk⟩
  have hpos : 0 < mid.length := List.length_pos_of_ne_nil hmid
  have hlength := congrArg List.length hk
  rw [List.length_append] at hlength
  rcases Nat.lt_or_ge before.length k with hlt | hle
  · -- the boundary lies behind the message
    have hdrop : (before ++ f :: after).drop k = after.drop (k - before.length - 1) := by
      rw [List.drop_append, List.drop_of_length_le hlt.le, List.nil_append]
      obtain ⟨n, hn⟩ : ∃ n, k - before.length = n + 1 := ⟨k - before.length - 1, by omega⟩
      rw [hn]
      rfl
    have hle : (wire (after.drop (k - before.length - 1))).length ≤ (wire after).length := by
      have hsplit := congrArg List.length
        (wire_append (after.take (k - before.length - 1)) (after.drop (k - before.length - 1)))
      rw [List.take_append_drop, List.length_append] at hsplit
      omega
    rw [hdrop] at hlength
    omega
  · -- the boundary lies before it
    rw [List.drop_append_of_le_length hle, wire_append, wire_cons, List.length_append,
      List.length_append] at hlength
    omega

/-! ## Runs -/

/-- A round after which the loop goes on has taken what the receive took. -/
theorem round_goes (A : Arith F) (sort : Sorter F) {l : Loop F} {label : Label F}
    (hw : Ready l.worker) (h : (round A sort l label).1.running = true) :
    (recvMessage l.stream).stops = false ∧
      (round A sort l label).1.stream = (recvMessage l.stream).rest := by
  unfold round at h ⊢
  split at h
  · contradiction
  · rename_i hterm
    rw [if_neg hterm]
    dsimp only at h ⊢
    split at h
    · rename_i err herr
      split at h
      · contradiction
      · rename_i hlives
        rw [if_neg hlives, stops_of_err herr]
        simp only [Bool.or_eq_true, Bool.not_eq_true', not_or, Bool.not_eq_false] at hlives
        exact ⟨by rw [hlives.2]; rfl, rfl⟩
    · rename_i herr
      rw [stops_of_message herr]
      rw [handle_leave A sort label.env hw (recvMessage l.stream).payload
        (recvMessage_version herr)] at h
      exact ⟨by simpa using h, rfl⟩

/-- The loop stands in front of some of the messages, none of which it loses; or it has
left. -/
def InFrontOf (frames : List Frame) (l : Loop F) : Prop :=
  l.running = true → Ready l.worker ∧ ∃ before after, frames = before ++ after ∧
    l.stream = wire after ∧ ∀ f ∈ reached after, f.Fits

/-- A round from there goes on at the next message. -/
theorem inFrontOf_round (A : Arith F) (sort : Sorter F) {frames : List Frame} {l : Loop F}
    (label : Label F) (h : InFrontOf frames l) (hrunning : l.running = true)
    (hgoes : (round A sort l label).1.running = true) :
    AtBoundary frames (round A sort l label).1.stream ∧
      InFrontOf frames (round A sort l label).1 := by
  obtain ⟨hw, before, after, rfl, hstream, hfit⟩ := h hrunning
  obtain ⟨hstops, hrest⟩ := round_goes A sort hw hgoes
  have hready : Ready (round A sort l label).1.worker := by
    rcases round_cases A sort hw label with ⟨hworker, -⟩ | hhandling
    · rwa [hworker]
    · exact hhandling.ready
  rw [hstream] at hstops hrest
  cases after with
  | nil =>
      have hnil : (round A sort l label).1.stream = [] := hrest
      refine ⟨⟨before.length, ?_⟩, fun _ => ⟨hready, before, [], rfl, hnil, hfit⟩⟩
      rw [hnil, List.append_nil, List.drop_length]
      rfl
  | cons f more =>
      rw [wire_cons] at hstops hrest
      have hframe : f.stops = false := by
        by_contra hleaves
        rw [stops_append (Bool.not_eq_false _ ▸ hleaves)] at hstops
        contradiction
      obtain ⟨hread, hfits⟩ := hfit f (by simp [reached, hframe])
      cases outcome hread (wire more) with
      | leaves hleaves => rw [hleaves] at hstops; contradiction
      | inside mid hoversized => exact absurd hoversized hfits
      | behind _ _ hgoes hbehind =>
          rw [hbehind] at hrest
          refine ⟨⟨before.length + 1, ?_⟩, fun _ => ⟨hready, before ++ [f], more, by simp,
            hrest, fun g hg => hfit g (by simpa [reached, hframe] using Or.inr hg)⟩⟩
          rw [hrest]
          congr 1
          simp

/-- A label without a signal. -/
def quietLabel (A : Arith F) : Label F where
  termBefore := false
  termAfter := false
  env :=
    { load := { mapped := false, good := false, inputs := [], outputs := [] }
      output := fun _ => A.zero
      forwardError := none }

/-- The loop gets past messages that it neither leaves on nor loses. -/
theorem exec_past (A : Arith F) (sort : Sorter F) {before : List Frame}
    (hbefore : ∀ f ∈ before, f.stops = false ∧ f.Fits) (after : List Frame)
    {w : Worker F} (hw : Ready w) :
    ∃ t es, (machine A sort).exec (List.replicate before.length (quietLabel A))
        { worker := w, stream := wire (before ++ after) } = some (t, es) ∧
      t.running = true ∧ Ready t.worker ∧ t.stream = wire after := by
  induction before generalizing w with
  | nil => exact ⟨_, [], rfl, rfl, hw, rfl⟩
  | cons f rest ih =>
      obtain ⟨hstops, hread, hfits⟩ := hbefore f List.mem_cons_self
      obtain ⟨⟨w₁, stream, running⟩, first, hround⟩ : ∃ l₁ first, round A sort
          { worker := w, stream := wire (f :: rest ++ after) } (quietLabel A) = (l₁, first) :=
        ⟨_, _, rfl⟩
      have hstep := round_running A sort
        (l := { worker := w, stream := wire (f :: rest ++ after) }) (quietLabel A) hw rfl rfl rfl
      have hcases := round_cases A sort
        (l := { worker := w, stream := wire (f :: rest ++ after) }) hw (quietLabel A)
      rw [hround] at hstep hcases
      dsimp only at hstep hcases
      have hready : Ready w₁ := by
        rcases hcases with ⟨hworker, -⟩ | hhandling
        · rwa [hworker]
        · exact hhandling.ready
      rw [List.cons_append, wire_cons] at hstep
      obtain ⟨hgoes, hrest⟩ := hstep
      cases outcome hread (wire (rest ++ after)) with
      | leaves _ hleaves => rw [hleaves] at hstops; contradiction
      | inside _ hoversized => exact absurd hoversized hfits
      | behind _ _ hstay hbehind =>
          rw [hstay] at hgoes
          rw [hbehind] at hrest
          subst hgoes hrest
          obtain ⟨t, es, hrun, hlast⟩ := ih (fun g hg => hbefore g (List.mem_cons_of_mem f hg))
            hready
          refine ⟨t, first ++ es, (Machine.exec_cons_eq_some _).mpr ⟨_, first, es, ?_, hrun, rfl⟩,
            hlast⟩
          exact congrArg some hround

/-- The first message that is lost, of those that the loop reaches. -/
theorem exists_first_oversized {frames : List Frame} {f : Frame}
    (hread : ∀ f ∈ reached frames, f.ReadAsDeclared) (hmem : f ∈ reached frames)
    (hoversized : f.Oversized) :
    ∃ before g after, frames = before ++ g :: after ∧
      (∀ x ∈ before, x.stops = false ∧ x.Fits) ∧ g.stops = false ∧ g.ReadAsDeclared ∧
        g.Oversized := by
  induction frames with
  | nil => contradiction
  | cons g rest ih =>
      have hstops : g.stops = false := by
        by_contra hstops
        simp [reached, hstops] at hmem
      have hcons : reached (g :: rest) = g :: reached rest := by simp [reached, hstops]
      rw [hcons] at hread hmem
      have hg := hread g List.mem_cons_self
      by_cases hlarge : g.Oversized
      · exact ⟨[], g, rest, rfl, by simp, hstops, hg, hlarge⟩
      · have hrest : f ∈ reached rest := by
          rcases List.mem_cons.mp hmem with rfl | hrest
          · exact absurd hoversized hlarge
          · exact hrest
        obtain ⟨before, x, after, rfl, hbefore, hx⟩ :=
          ih (fun y hy => hread y (List.mem_cons_of_mem g hy)) hrest
        refine ⟨g :: before, x, after, rfl, fun y hy => ?_, hx⟩
        rcases List.mem_cons.mp hy with rfl | hy
        · exact ⟨hstops, hg, hlarge⟩
        · exact hbefore y hy

/-- A round on a message that is lost. -/
theorem not_keepsSync (A : Arith F) (sort : Sorter F) (before after : List Frame) {f : Frame}
    {l : Loop F} (hrunning : l.running = true) (hstream : l.stream = wire (f :: after))
    (hstops : f.stops = false) (hread : f.ReadAsDeclared) (hoversized : f.Oversized) :
    ¬ KeepsSync A sort (before ++ f :: after) l (quietLabel A) := by
  intro hsync
  cases outcome hread (wire after) with
  | leaves _ hleaves => rw [hleaves] at hstops; contradiction
  | behind hfits => exact absurd hoversized hfits
  | inside mid _ _ hgoes herr hrest hmid hshort =>
      obtain ⟨err, herr⟩ := Option.isSome_iff_exists.mp herr
      have hsurvives : survives err = true := by
        simpa [Received.stops, herr] using hgoes
      rw [← wire_cons, ← hstream] at herr hrest
      have hround : round A sort l (quietLabel A) =
          ({ l with stream := mid ++ wire after },
            [statusReply (recvMessage l.stream).header l.worker.workerGeneration
              (cstr "INVALID_ARGS") err]) := by
        simp [round, quietLabel, herr, hsurvives, hrest]
      have hboundary := hsync (recvMessage l.stream).header
      rw [hround] at hboundary
      exact not_atBoundary hmid hshort
        (hboundary _ _ (List.mem_singleton.mpr rfl) (by simp [cstr, py]) hrunning)

/-- Every run over the messages stays at their boundaries. -/
def StaysInSync (A : Arith F) (sort : Sorter F) (w : Worker F) (frames : List Frame) : Prop :=
  ∀ labels t es, (machine A sort).exec labels { worker := w, stream := wire frames } =
      some (t, es) →
    (machine A sort).Along (KeepsSync A sort frames) labels
      { worker := w, stream := wire frames }

/-- Messages that can be read or refused as a whole are never lost. -/
theorem staysInSync_of_fits (A : Arith F) (sort : Sorter F) {w : Worker F} (hw : Ready w)
    {frames : List Frame} (hfit : ∀ f ∈ reached frames, f.Fits) :
    StaysInSync A sort w frames := by
  intro labels t es hrun
  have hstart : InFrontOf frames { worker := w, stream := wire frames } :=
    fun _ => ⟨hw, [], frames, rfl, rfl, hfit⟩
  refine (machine A sort).along_of_invariant (fun s label s' es hs hstep => ?_) hstart hrun
  simp only [machine, Option.ite_none_right_eq_some, Option.some.injEq] at hstep
  obtain ⟨hrunning, hround⟩ := hstep
  have hnext := inFrontOf_round A sort label hs hrunning
  refine ⟨fun _ _ _ _ _ hgoes => (hnext hgoes).1, fun hgoes => ?_⟩
  rw [← show (round A sort s label).1 = s' by rw [hround]] at hgoes ⊢
  exact (hnext hgoes).2 hgoes

/-- An oversized message that is reached, and read as declared, is lost in some run. -/
theorem not_staysInSync (A : Arith F) (sort : Sorter F) {w : Worker F} (hw : Ready w)
    {frames : List Frame} (hread : ∀ f ∈ reached frames, f.ReadAsDeclared) {f : Frame}
    (hmem : f ∈ reached frames) (hoversized : f.Oversized) : ¬ StaysInSync A sort w frames := by
  intro hsync
  obtain ⟨before, g, after, rfl, hbefore, hstops, hg, hlarge⟩ :=
    exists_first_oversized hread hmem hoversized
  obtain ⟨t, es, hrun, hrunning, hready, hstream⟩ := exec_past A sort hbefore (g :: after) hw
  have hlast : (machine A sort).exec
      (List.replicate before.length (quietLabel A) ++ [quietLabel A])
      { worker := w, stream := wire (before ++ g :: after) } =
        some ((round A sort t (quietLabel A)).1, es ++ (round A sort t (quietLabel A)).2) := by
    exact (Machine.exec_append _).mpr ⟨t, es, _, hrun, exec_one A sort hrunning _, rfl⟩
  have halong := Machine.Along.of_append _ (hsync _ _ _ hlast) hrun
  exact not_keepsSync A sort before after hrunning hstream hstops hg hlarge halong.1

/-- **The loop stays at the boundaries of the messages**, in every run over a stream of
them, when each that it reaches fits: its payload has the length that the worker reads, and
neither its header nor its payload is over its bound.  Where all are read as declared, it
does so only then. -/
theorem frame_sync (A : Arith F) (sort : Sorter F) {w : Worker F} (hw : Ready w)
    (frames : List Frame) :
    ((∀ f ∈ reached frames, f.Fits) → StaysInSync A sort w frames) ∧
      ((∀ f ∈ reached frames, f.ReadAsDeclared) →
        (StaysInSync A sort w frames ↔ ∀ f ∈ reached frames, f.Fits)) := by
  refine ⟨staysInSync_of_fits A sort hw, fun hread => ⟨fun hsync f hmem => ⟨hread f hmem, ?_⟩,
    staysInSync_of_fits A sort hw⟩⟩
  exact fun hoversized => not_staysInSync A sort hw hread hmem hoversized hsync

/-! ## Messages that are lost -/

/-- A {lit}`RESULT` with one byte more than the bound. -/
def oversizedResult : Frame where
  js :=
    cstr "\x7b\"message_type\": \"RESULT\", \"payload_length\": 481, " ++
      cstr "\"protocol_version\": 1\x7d"
  payload := List.replicate 481 0
  header_lt := by decide

/-- The loop reads the payload of the refused message as the next length prefix. -/
theorem oversizedResult_desyncs :
    oversizedResult.ReadAsDeclared ∧
      ∃ labels t es, (machine sampleArith sampleSort).exec labels
          { worker := Worker.start (1 / 4) (9 / 20), stream := wire [oversizedResult] } =
            some (t, es) ∧
        ¬ (machine sampleArith sampleSort).Along
          (KeepsSync sampleArith sampleSort [oversizedResult]) labels
          { worker := Worker.start (1 / 4) (9 / 20), stream := wire [oversizedResult] } := by
  have hread : oversizedResult.ReadAsDeclared := by decide +kernel
  refine ⟨hread, [quietLabel sampleArith], _, _, exec_one sampleArith sampleSort rfl _,
    fun halong => ?_⟩
  have hstops : oversizedResult.stops = false := by decide +kernel
  have hoversized : oversizedResult.Oversized := by decide +kernel
  have hbad := not_keepsSync sampleArith sampleSort [] []
    (l := { worker := Worker.start (1 / 4) (9 / 20), stream := wire [oversizedResult] })
    rfl rfl hstops hread hoversized
  exact hbad halong.1

/-- A {lit}`LOAD` with a payload of four bytes, of which the worker reads eighty: the text
{lit}`"payload_length"` is the value of an earlier field. -/
def misreadLoad : Frame where
  js :=
    cstr "\x7b\"artifact_path\": \"payload_length\", \"class_count\": 80, " ++
      (cstr "\"message_type\": \"LOAD\", \"payload_length\": 4, " ++
        cstr "\"protocol_version\": 1\x7d")
  payload := List.replicate 4 0
  header_lt := by decide +kernel

/-- A reply with an error. -/
def Event.reportsError : Event → Bool
  | .send _ reply _ => !reply.errorCode.isEmpty
  | _ => false

/-- The loop in front of the misread message and another one. -/
def misreadLoop : Loop ℚ where
  worker := Worker.start (1 / 4) (9 / 20)
  stream := wire [misreadLoad, oversizedResult]

/-- The loop takes a part of the next message for the payload, reports that the load fails,
and goes on inside that message. -/
theorem misreadLoad_desyncs :
    ¬ KeepsSync sampleArith sampleSort [misreadLoad, oversizedResult] misreadLoop
      (quietLabel sampleArith) := by
  intro hsync
  have hround : (round sampleArith sampleSort misreadLoop (quietLabel sampleArith)).1.running =
        true ∧
      (round sampleArith sampleSort misreadLoop (quietLabel sampleArith)).2.any
        Event.reportsError = true ∧
      (round sampleArith sampleSort misreadLoop (quietLabel sampleArith)).1.stream ≠ [] ∧
      (round sampleArith sampleSort misreadLoop (quietLabel sampleArith)).1.stream.length <
        oversizedResult.bytes.length := by
    decide +kernel
  obtain ⟨hrunning, hreports, hne, hshort⟩ := hround
  obtain ⟨event, hmem, herror⟩ := List.any_eq_true.mp hreports
  cases event with
  | send request reply p =>
      have hcode : reply.errorCode ≠ [] := by simpa [Event.reportsError] using herror
      have hsplit := @not_atBoundary [misreadLoad] [] _ _ hne hshort
      rw [show wire [] = [] from rfl, List.append_nil] at hsplit
      exact hsplit (hsync request reply p hmem hcode hrunning)
  | _ => exact Bool.false_ne_true herror

/-- An inference without a tensor. -/
def refusedInfer : Frame where
  js :=
    cstr "\x7b\"message_type\": \"INFER\", \"payload_length\": 4, " ++
      cstr "\"protocol_version\": 1\x7d"
  payload := List.replicate 4 0
  header_lt := by decide

/-- The loop refuses each and stands in front of the next message. -/
theorem frame_sync_refusedInfer :
    StaysInSync sampleArith sampleSort (Worker.start (1 / 4) (9 / 20))
      [refusedInfer, refusedInfer] :=
  (frame_sync sampleArith sampleSort (watched_start (1 / 4) (9 / 20)).ready
    [refusedInfer, refusedInfer]).1 (by decide +kernel)

end Native
end FrigateXdna
