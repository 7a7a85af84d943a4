import FrigateXdna.Python.Json

/-!
# The private supervisor-to-worker framing

A message is a four-byte big-endian header length, a JSON header and a bounded
payload.  {lit}`sendMessage` builds the bytes that are written to the socket;
{lit}`recvMessage` parses what the socket delivers.  The socket itself is the
list of bytes that arrive before the receive call ends, together with the
exception {lit}`starved` that ends a read which wants more than that.

Main results:

- Theorem {lit}`recvMessage_append`: bytes after a complete message do not
  change it.
- Theorem {lit}`recvMessage_of_short`: a receive that meets only the beginning
  of a message takes all of it off the socket and fails.
- Theorem {lit}`sendMessage_error`: a refused request is a {lit}`ValueError`.
-/

namespace FrigateXdna
namespace Runtime

open Python

/-! ## Constants -/

/-- {lit}`PROTOCOL_VERSION`. -/
def protocolVersion : Int := 1

/-- {lit}`MAX_HEADER_BYTES`. -/
def maxHeaderBytes : Nat := 16 * 1024

/-- {lit}`MAX_TENSOR_BYTES`. -/
def maxTensorBytes : Nat := 16 * 1024 * 1024

/-- {lit}`MAX_MODEL_BYTES`. -/
def maxModelBytes : Nat := 256 * 1024 * 1024

/-- {lit}`MESSAGE_TYPES`. -/
def messageTypes : List PyStr :=
  [py "LOAD", py "INFER", py "RESULT", py "STATUS", py "SHUTDOWN"]

/-- The items of a dictionary. -/
abbrev Fields := List (PyStr × Json)

/-- {lit}`header.get(key, default)`. -/
def Fields.getD (header : Fields) (key : PyStr) (default : Json) : Json :=
  (lookupField key header).getD default

/-- {lit}`header.get(key)`. -/
def Fields.get (header : Fields) (key : PyStr) : Json :=
  Fields.getD header key .null

/-- {lit}`header.get("message_type") in MESSAGE_TYPES`. -/
def knownType (header : Fields) : Bool :=
  messageTypes.any fun t => (Fields.get header (py "message_type")).eqStr t

/-- {lit}`header.get("message_type") == t`. -/
def isType (header : Fields) (t : PyStr) : Bool :=
  (Fields.get header (py "message_type")).eqStr t

/-! ## Sending -/

/-- {lit}`struct.pack("!I", n)`. -/
def packLength (n : Nat) : Bytes :=
  [n / 16777216, n / 65536, n / 256, n].map fun b => UInt8.ofNat (b % 256)

/-- {lit}`json.dumps(header, sort_keys=True).encode()`; the text is ASCII. -/
def encodeHeader (header : Fields) : Bytes :=
  (dumps (.obj header)).map UInt8.ofNat

/-- {lit}`header.setdefault("protocol_version", PROTOCOL_VERSION)`. -/
def withVersion (header : Fields) : Fields :=
  match lookupField (py "protocol_version") header with
  | some _ => header
  | none => setField (py "protocol_version") (.int protocolVersion) header

/-- The header that goes on the wire. -/
def wireHeader (header : Fields) (payload : Bytes) : Fields :=
  setField (py "payload_length") (.int payload.length) (withVersion header)

/-- {lit}`send_message`, up to the socket: the bytes to write, or the
{lit}`ValueError` it raises before it writes anything. -/
def sendMessage (header : Fields) (payload : Bytes) : Except PyExc Bytes :=
  if !knownType (withVersion header) then
    .error .valueError
  else if !(Fields.get (withVersion header) (py "protocol_version")).eqInt
      protocolVersion then
    .error .valueError
  else if payload.length > maxTensorBytes &&
      isType (withVersion header) (py "INFER") then
    .error .valueError
  else if payload.length > maxModelBytes &&
      isType (withVersion header) (py "LOAD") then
    .error .valueError
  else if (encodeHeader (wireHeader header payload)).length > maxHeaderBytes then
    .error .valueError
  else
    .ok (packLength (encodeHeader (wireHeader header payload)).length ++
      encodeHeader (wireHeader header payload) ++ payload)

/-- {lit}`send_message` raises nothing but {lit}`ValueError` of its own. -/
theorem sendMessage_error {header : Fields} {payload : Bytes} {e : PyExc}
    (h : sendMessage header payload = .error e) : e = .valueError := by
  simp only [sendMessage] at h
  split_ifs at h <;> simp_all

/-- A frame has at least the four bytes of its length field. -/
theorem sendMessage_long {header : Fields} {payload frame : Bytes}
    (h : sendMessage header payload = .ok frame) : 4 ≤ frame.length := by
  simp only [sendMessage] at h
  split_ifs at h
  obtain rfl := Except.ok.inj h
  simp [packLength]

/-! ## Receiving -/

/-- {lit}`_recv_exact`: the next {lit}`n` bytes and what stays behind. -/
def recvExact (n : Nat) (stream : Bytes) : Option (Bytes × Bytes) :=
  if n ≤ stream.length then some (stream.take n, stream.drop n) else none

/-- {lit}`struct.unpack("!I", …)[0]`. -/
def unpackLength (field : Bytes) : Nat :=
  field.foldl (fun n b => 256 * n + b.toNat) 0

/-- Parse and validate a header; yields the dictionary and the payload length. -/
def readHeader (limit : Nat) (js : Bytes) : Except PyExc (Fields × Nat) := do
  let parsed ← loads limit js
  -- the first `.get` is what a value that is not a dictionary trips over
  let version ← parsed.get (py "protocol_version")
  if !version.eqInt protocolVersion then
    .error .valueError
  else
    let header : Fields := match parsed with
      | .obj fields => fields
      | _ => []
    if !knownType header then
      .error .valueError
    else
      let payloadLen ← (Fields.getD header (py "payload_length") (.int 0)).toInt
      if payloadLen < 0 ∨ payloadLen > maxModelBytes then
        .error .valueError
      else if isType header (py "INFER") && payloadLen > maxTensorBytes then
        .error .valueError
      else
        .ok (header, payloadLen.toNat)

/-- The end of a {lit}`recv_message` call, with the number of bytes it took off
the socket. -/
inductive Received
  | message (header : Fields) (payload : Bytes) (used : Nat)
  | failed (e : PyExc) (used : Nat)

/-- How many bytes a receive took off the socket. -/
def Received.used : Received → Nat
  | .message _ _ n => n
  | .failed _ n => n

/-- {lit}`recv_message` on a socket that delivers {lit}`stream` and then answers
every further read with {lit}`starved`. -/
def recvMessage (limit : Nat) (starved : PyExc) (stream : Bytes) : Received :=
  match recvExact 4 stream with
  | none => .failed starved stream.length
  | some (field, afterField) =>
      if unpackLength field = 0 ∨ unpackLength field > maxHeaderBytes then
        .failed .valueError 4
      else
        match recvExact (unpackLength field) afterField with
        | none => .failed starved stream.length
        | some (js, afterHeader) =>
            match readHeader limit js with
            | .error e => .failed e (4 + unpackLength field)
            | .ok (header, payloadLen) =>
                match recvExact payloadLen afterHeader with
                | none => .failed starved stream.length
                | some (payload, _) =>
                    .message header payload (4 + unpackLength field + payloadLen)

/-! ## Parsing is local to the message -/

theorem recvExact_eq_some {n : Nat} {stream taken rest : Bytes} :
    recvExact n stream = some (taken, rest) ↔
      stream = taken ++ rest ∧ taken.length = n := by
  unfold recvExact
  constructor
  · intro h
    split at h
    · rename_i hle
      obtain ⟨rfl, rfl⟩ := Prod.mk.inj (Option.some.inj h)
      exact ⟨(List.take_append_drop n stream).symm, List.length_take_of_le hle⟩
    · contradiction
  · rintro ⟨rfl, rfl⟩
    simp

theorem recvExact_eq_none {n : Nat} {stream : Bytes} :
    recvExact n stream = none ↔ stream.length < n := by
  unfold recvExact
  split <;> simp_all

/-- A complete message is a length field, a header and a payload, with the bytes
behind it untouched. -/
theorem recvMessage_eq_message {limit : Nat} {starved : PyExc} {stream : Bytes}
    {header : Fields} {payload : Bytes} {used : Nat} :
    recvMessage limit starved stream = .message header payload used ↔
      ∃ field js rest, stream = field ++ js ++ payload ++ rest ∧
        field.length = 4 ∧ unpackLength field = js.length ∧
        js.length ≠ 0 ∧ js.length ≤ maxHeaderBytes ∧
        readHeader limit js = .ok (header, payload.length) ∧
        used = 4 + js.length + payload.length := by
  constructor
  · intro h
    unfold recvMessage at h
    split at h
    · contradiction
    · rename_i field afterField hfield
      obtain ⟨rfl, hlen⟩ := recvExact_eq_some.mp hfield
      split at h
      · contradiction
      · rename_i hbound
        split at h
        · contradiction
        · rename_i js afterHeader hjs
          obtain ⟨rfl, hjslen⟩ := recvExact_eq_some.mp hjs
          split at h
          · contradiction
          · rename_i header' payloadLen hread
            split at h
            · contradiction
            · rename_i payload' rest hpayload
              obtain ⟨rfl, hplen⟩ := recvExact_eq_some.mp hpayload
              cases h
              rw [not_or] at hbound
              refine ⟨field, js, rest, by simp, hlen, hjslen.symm, ?_, ?_, ?_, ?_⟩
              · omega
              · omega
              · rw [hread, hplen]
              · omega
  · rintro ⟨field, js, rest, rfl, hlen, hjs, hpos, hmax, hread, rfl⟩
    have hfield : recvExact 4 (field ++ js ++ payload ++ rest) =
        some (field, js ++ payload ++ rest) :=
      recvExact_eq_some.mpr ⟨by simp, hlen⟩
    have hheader : recvExact js.length (js ++ payload ++ rest) =
        some (js, payload ++ rest) :=
      recvExact_eq_some.mpr ⟨by simp, rfl⟩
    have hpayload : recvExact payload.length (payload ++ rest) =
        some (payload, rest) :=
      recvExact_eq_some.mpr ⟨rfl, rfl⟩
    have hbound : ¬(js.length = 0 ∨ js.length > maxHeaderBytes) := by omega
    simp only [recvMessage, hfield, hjs, if_neg hbound, hheader, hread, hpayload]

/-- Bytes after a complete message do not change it. -/
theorem recvMessage_append {limit : Nat} {starved : PyExc} {frame : Bytes}
    {header : Fields} {payload : Bytes} {used : Nat}
    (h : recvMessage limit starved frame = .message header payload used)
    (starved' : PyExc) (more : Bytes) :
    recvMessage limit starved' (frame ++ more) = .message header payload used := by
  obtain ⟨field, js, rest, rfl, hlen, hjs, hpos, hmax, hread, rfl⟩ :=
    recvMessage_eq_message.mp h
  exact recvMessage_eq_message.mpr
    ⟨field, js, rest ++ more, by simp, hlen, hjs, hpos, hmax, hread, rfl⟩

/-- A successful receive took at least the length field. -/
theorem recvMessage_used_pos {limit : Nat} {starved : PyExc} {stream : Bytes}
    {header : Fields} {payload : Bytes} {used : Nat}
    (h : recvMessage limit starved stream = .message header payload used) :
    0 < used ∧ used ≤ stream.length := by
  obtain ⟨field, js, rest, rfl, hlen, -, -, -, -, rfl⟩ := recvMessage_eq_message.mp h
  simp only [List.length_append]
  omega

/-- A receive that meets only the beginning of a message takes all of it off the
socket and ends with the exception of the starved read. -/
theorem recvMessage_of_short {limit : Nat} {starved starved' : PyExc}
    {frame : Bytes} {header : Fields} {payload : Bytes}
    (h : recvMessage limit starved frame = .message header payload frame.length)
    {k : Nat} (hk : k < frame.length) :
    recvMessage limit starved' (frame.take k) = .failed starved' k := by
  obtain ⟨field, js, rest, hframe, hlen, hjs, hpos, hmax, hread, hused⟩ :=
    recvMessage_eq_message.mp h
  have hrest : rest = [] := by
    rw [hframe] at hused
    simp only [List.length_append] at hused
    exact List.eq_nil_of_length_eq_zero (by omega)
  subst hrest
  have htake : (frame.take k).length = k := List.length_take_of_le (Nat.le_of_lt hk)
  by_cases hshort : k < 4
  · -- the length field itself is cut
    have : recvExact 4 (frame.take k) = none :=
      recvExact_eq_none.mpr (by omega)
    simp [recvMessage, this, htake]
  · have hfield : recvExact 4 (frame.take k) =
        some (field, (js ++ payload).take (k - 4)) := by
      refine recvExact_eq_some.mpr ⟨?_, hlen⟩
      rw [hframe, List.append_nil, List.append_assoc, List.take_append, hlen,
        List.take_of_length_le (by omega)]
    have hbound : ¬(js.length = 0 ∨ js.length > maxHeaderBytes) := by omega
    by_cases hcut : k - 4 < js.length
    · -- the header is cut
      have : recvExact js.length ((js ++ payload).take (k - 4)) = none := by
        refine recvExact_eq_none.mpr ?_
        rw [List.length_take]
        omega
      simp only [recvMessage, hfield, hjs, if_neg hbound, this, htake]
    · -- the payload is cut
      have hheader : recvExact js.length ((js ++ payload).take (k - 4)) =
          some (js, payload.take (k - 4 - js.length)) := by
        refine recvExact_eq_some.mpr ⟨?_, rfl⟩
        rw [List.take_append, List.take_of_length_le (by omega)]
      have : recvExact payload.length (payload.take (k - 4 - js.length)) = none := by
        refine recvExact_eq_none.mpr ?_
        rw [List.length_take]
        omega
      simp only [recvMessage, hfield, hjs, if_neg hbound, hheader, hread, this, htake]

end Runtime
end FrigateXdna
