import FrigateXdna.Native.ReplyScan

/-!
# The replies that arrive as they were sent

A reply arrives when its texts are UTF-8: the path, the digest and the tensor type as well,
since one byte that does not decode makes the supervisor refuse the whole header.

Main results:

- Theorem {lit}`lookupField_addFields`: a lookup finds the last value of its key.
- Theorem {lit}`reply_read_iff`: exactly which replies arrive as they were sent.
- Theorem {lit}`latinMessage_refused`: an error message that does not.
-/

namespace FrigateXdna
namespace Native

open Python

/-! ## Looking up a field -/

/-- The last value of a key. -/
def lastValue {τ : Type} (k : Key) : List (Key × Value τ) → Option (Value τ)
  | [] => none
  | (l, v) :: rest => (lastValue k rest).or (if l = k then some v else none)

theorem lastValue_append {τ : Type} (k : Key) (fs gs : List (Key × Value τ)) :
    lastValue k (fs ++ gs) = (lastValue k gs).or (lastValue k fs) := by
  induction fs with
  | nil => simp [lastValue]
  | cons f rest ih => rw [List.cons_append, lastValue, ih, lastValue, Option.or_assoc]

theorem lookupField_setField (key : PyStr) (value : Json) (l : PyStr)
    (fields : List (PyStr × Json)) :
    lookupField key (setField l value fields) =
      if l = key then some value else lookupField key fields := by
  induction fields with
  | nil => rfl
  | cons f rest ih =>
      obtain ⟨m, v⟩ := f
      by_cases hm : m = l
      · subst hm
        rw [setField, if_pos rfl, lookupField, lookupField]
        split <;> rfl
      · rw [setField, if_neg hm, lookupField, lookupField, ih]
        by_cases hl : l = key
        · subst hl
          rw [if_neg hm, if_pos rfl, if_pos rfl]
        · rw [if_neg hl, if_neg hl]

theorem py_text_injective {k l : Key} (h : py k.text = py l.text) : k = l :=
  Key.bytes_injective (congrArg (List.map UInt8.ofNat) h)

/-- **A lookup in what was read** finds the last value of the key. -/
theorem lookupField_addFields (k : Key) (fields : List (Key × Value PyStr))
    (seen : List (PyStr × Json)) :
    lookupField (py k.text) (addFields seen fields) =
      ((lastValue k fields).map Value.json).or (lookupField (py k.text) seen) := by
  induction fields generalizing seen with
  | nil => rfl
  | cons f rest ih =>
      obtain ⟨l, v⟩ := f
      have hstep : addFields seen ((l, v) :: rest) =
          addFields (setField (py l.text) v.json seen) rest := rfl
      rw [hstep, ih, lookupField_setField, lastValue]
      by_cases hl : l = k
      · subst hl
        rw [if_pos rfl, if_pos rfl]
        cases lastValue l rest <;> rfl
      · have hne : py l.text ≠ py k.text := fun heq => hl (py_text_injective heq)
        rw [if_neg hl, if_neg hne, Option.or_none]

/-- Decoding keeps the keys. -/
theorem lastValue_decodeFields (k : Key) {fields : List (Key × Value Bytes)}
    {decoded : List (Key × Value PyStr)} (h : decodeFields fields = some decoded) :
    lastValue k decoded = (lastValue k fields).bind Value.decode ∧
      ∀ v, lastValue k fields = some v → (Value.decode v).isSome := by
  induction fields generalizing decoded with
  | nil =>
      obtain rfl := Option.some.inj h
      exact ⟨rfl, fun v hv => absurd hv (by simp [lastValue])⟩
  | cons f rest ih =>
      obtain ⟨l, v⟩ := f
      obtain ⟨w, hw, hrest⟩ := Option.bind_eq_some_iff.mp h
      obtain ⟨more, hmore, rfl⟩ := Option.map_eq_some_iff.mp hrest
      obtain ⟨hlast, hsome⟩ := ih hmore
      rw [lastValue, lastValue, hlast]
      cases hfound : lastValue k rest with
      | none =>
          by_cases hl : l = k
          · simp [hl, hw]
          · simp [hl]
      | some u =>
          have hu := hsome u hfound
          obtain ⟨x, hx⟩ := Option.isSome_iff_exists.mp hu
          simp [hx]

/-- The fields are decoded when each of them is. -/
theorem decodeFields_isSome (fields : List (Key × Value Bytes)) :
    (decodeFields fields).isSome ↔ ∀ f ∈ fields, f.2.decode.isSome := by
  induction fields with
  | nil => simp [decodeFields]
  | cons f rest ih =>
      obtain ⟨k, v⟩ := f
      rw [List.forall_mem_cons, ← ih, decodeFields]
      cases v.decode <;> cases decodeFields rest <;> simp

/-! ## Which replies arrive as they were sent -/

/-- The integers of a header are those of its C++ types. -/
structure Header.Typed (h : Header) : Prop where
  requestId : -2 ^ 63 ≤ h.requestId ∧ h.requestId < 2 ^ 63
  workerGeneration : -2 ^ 63 ≤ h.workerGeneration ∧ h.workerGeneration < 2 ^ 63
  classCount : -2 ^ 31 ≤ h.classCount ∧ h.classCount < 2 ^ 31
  shape : ∀ d ∈ h.tensorSpec.shape, -2 ^ 31 ≤ d ∧ d < 2 ^ 31
  payloadLength : h.payloadLength < 2 ^ 64

/-- All texts of a header are UTF-8. -/
def Header.IsText (h : Header) : Prop :=
  (utf8Decode h.artifactPath).isSome ∧ (utf8Decode h.servingDigest).isSome ∧
    (utf8Decode h.tensorSpec.dtype).isSome ∧ (utf8Decode h.errorCode).isSome ∧
    (utf8Decode h.errorMessage).isSome

instance (h : Header) : Decidable h.IsText :=
  inferInstanceAs (Decidable (_ ∧ _))

/-- A text of a header, as the supervisor finds it; an empty one is left out. -/
def FoundText (rep : Runtime.Fields) (key : PyStr) (s : Bytes) : Prop :=
  if s.isEmpty then Runtime.Fields.get rep key = .null
  else ∃ text, utf8Decode s = some text ∧ Runtime.Fields.get rep key = .str text

/-- A received header says what the worker sent. -/
structure Recovers (rep : Runtime.Fields) (h : Header) : Prop where
  messageType : Runtime.Fields.get rep (py "message_type") = .str (py h.messageType.text)
  requestId : Runtime.Fields.get rep (py "request_id") = .int h.requestId
  workerGeneration : Runtime.Fields.get rep (py "worker_generation") = .int h.workerGeneration
  payloadLength : Runtime.Fields.get rep (py "payload_length") = .int h.payloadLength
  errorCode : FoundText rep (py "error_code") h.errorCode
  errorMessage : FoundText rep (py "error_message") h.errorMessage

theorem decode_optionalText (k : Key) (s : Bytes) :
    (∀ f ∈ optionalText k s, f.2.decode.isSome) ↔ (utf8Decode s).isSome := by
  unfold optionalText
  cases s with
  | nil => simp [utf8Decode, utf8Go]
  | cons b bs => simp [Value.decode]

theorem decode_optionalTensor (spec : TensorSpec) :
    (∀ f ∈ optionalTensor spec, f.2.decode.isSome) ↔ (utf8Decode spec.dtype).isSome := by
  unfold optionalTensor
  by_cases h : (spec.shape.isEmpty && spec.dtype.isEmpty) = true
  · rw [if_pos h]
    simp only [Bool.and_eq_true, List.isEmpty_iff] at h
    simp [h.2, utf8Decode, utf8Go]
  · rw [if_neg h]
    simp [Value.decode]

/-- Message types are ASCII. -/
theorem utf8Decode_type (t : MessageType) : utf8Decode (cstr t.text) = some (py t.text) := by
  cases t <;> decide

/-- **A printed header is UTF-8** exactly when its texts are. -/
theorem decodeFields_moreFields (h : Header) :
    (decodeFields h.moreFields).isSome ↔ h.IsText := by
  rw [decodeFields_isSome, Header.moreFields]
  simp only [List.forall_mem_append, decode_optionalText, decode_optionalTensor]
  simp only [List.forall_mem_cons, List.not_mem_nil, false_implies, implies_true, and_true,
    Value.decode, utf8Decode_type, Option.map_some, Option.isSome_some, true_and]
  rfl

/-- The integers of a field are machine words. -/
def Value.IsWord : Value Bytes → Prop
  | .number z => z.natAbs < 2 ^ 64
  | .text _ => True
  | .tensor shape _ => ∀ d ∈ shape, d.natAbs < 2 ^ 64

/-- What is decoded is sound. -/
theorem Value.decode_sound {v : Value Bytes} (hv : v.IsWord) {w : Value PyStr}
    (h : v.decode = some w) : w.Sound := by
  cases v with
  | number z =>
      obtain rfl := Option.some.inj h
      exact hv
  | text s =>
      obtain ⟨text, htext, rfl⟩ := Option.map_eq_some_iff.mp h
      exact utf8Decode_scalar htext
  | tensor shape dtype =>
      obtain ⟨text, htext, rfl⟩ := Option.map_eq_some_iff.mp h
      exact ⟨hv, utf8Decode_scalar htext⟩

theorem decodeFields_sound {fields : List (Key × Value Bytes)}
    (hwords : ∀ f ∈ fields, f.2.IsWord) {decoded : List (Key × Value PyStr)}
    (h : decodeFields fields = some decoded) : ∀ f ∈ decoded, f.2.Sound := by
  induction fields generalizing decoded with
  | nil =>
      obtain rfl := Option.some.inj h
      exact fun f hf => absurd hf List.not_mem_nil
  | cons f rest ih =>
      obtain ⟨k, v⟩ := f
      obtain ⟨w, hw, hrest⟩ := Option.bind_eq_some_iff.mp h
      obtain ⟨more, hmore, rfl⟩ := Option.map_eq_some_iff.mp hrest
      intro g hg
      rcases List.mem_cons.mp hg with rfl | hg
      · exact Value.decode_sound (hwords (k, v) List.mem_cons_self) hw
      · exact ih (fun e he => hwords e (List.mem_cons_of_mem (k, v) he)) hmore g hg

theorem isWord_optionalText (k : Key) (s : Bytes) : ∀ f ∈ optionalText k s, f.2.IsWord := by
  unfold optionalText
  split
  · simp
  · simp [Value.IsWord]

/-- Typed headers have machine words. -/
theorem Header.Typed.isWord {h : Header} (ht : h.Typed) : ∀ f ∈ h.moreFields, f.2.IsWord := by
  obtain ⟨hrequest, hgeneration, hclasses, hshape, hpayload⟩ := ht
  have htensor : ∀ f ∈ optionalTensor h.tensorSpec, f.2.IsWord := by
    unfold optionalTensor
    split
    · simp
    · intro f hf
      obtain rfl := List.mem_singleton.mp hf
      intro d hd
      have := hshape d hd
      omega
  have hnumbers : ∀ f ∈ [(Key.messageType, Value.text (cstr h.messageType.text)),
      (Key.requestId, Value.number h.requestId),
      (Key.workerGeneration, Value.number h.workerGeneration)], f.2.IsWord := by
    simp only [List.forall_mem_cons, List.not_mem_nil, false_implies, implies_true, and_true,
      Value.IsWord, true_and]
    omega
  have hcounts : ∀ f ∈ [(Key.payloadLength, Value.number (h.payloadLength : Int)),
      (Key.classCount, Value.number h.classCount)], f.2.IsWord := by
    simp only [List.forall_mem_cons, List.not_mem_nil, false_implies, implies_true, and_true,
      Value.IsWord]
    omega
  rw [Header.moreFields]
  simp only [List.forall_mem_append]
  exact ⟨hnumbers, isWord_optionalText _ _, isWord_optionalText _ _, htensor, hcounts,
    isWord_optionalText _ _, isWord_optionalText _ _⟩

@[simp]
theorem lastValue_optionalText (k l : Key) (s : Bytes) :
    lastValue k (optionalText l s) =
      if l = k then (if s.isEmpty then none else some (.text s)) else none := by
  unfold optionalText
  by_cases hs : s.isEmpty = true
  · simp [hs, lastValue]
  · simp [hs, lastValue]

@[simp]
theorem lastValue_optionalTensor {k : Key} (hk : k ≠ .tensorSpec) (spec : TensorSpec) :
    lastValue k (optionalTensor spec) = none := by
  unfold optionalTensor
  split
  · rfl
  · simp [lastValue, Ne.symm hk]

/-- What the supervisor finds in a header that it could read. -/
theorem get_addFields {h : Header} {fields : List (Key × Value PyStr)}
    (hfields : decodeFields h.moreFields = some fields) {k : Key} (hk : k ≠ .protocolVersion) :
    lookupField (py k.text)
        (addFields [] ((.protocolVersion, .number h.protocolVersion) :: fields)) =
      ((lastValue k h.moreFields).bind Value.decode).map Value.json := by
  rw [lookupField_addFields, lastValue, (lastValue_decodeFields k hfields).1, if_neg (Ne.symm hk),
    Option.or_none]
  exact Option.or_none

/-- The headers that the worker sends: of this version and of a known type. -/
structure Header.Sendable (h : Header) (payload : Bytes) : Prop where
  typed : h.Typed
  protocolVersion : h.protocolVersion = Native.protocolVersion
  messageType : h.messageType ≠ .unknown
  payloadLength : h.payloadLength = payload.length
  payload : payload.length ≤ maxModelBytes

/-- An optional text, as the supervisor finds it. -/
theorem foundText_of_lookup {rep : Runtime.Fields} {k : Key} {s : Bytes}
    (hs : (utf8Decode s).isSome)
    (h : lookupField (py k.text) rep =
      ((if s.isEmpty then none else some (Value.text s)).bind Value.decode).map Value.json) :
    FoundText rep (py k.text) s := by
  unfold FoundText Runtime.Fields.get Runtime.Fields.getD
  rw [h]
  by_cases hempty : s.isEmpty = true
  · rw [if_pos hempty, if_pos hempty]
    rfl
  · obtain ⟨text, htext⟩ := Option.isSome_iff_exists.mp hs
    rw [if_neg hempty, if_neg hempty]
    refine ⟨text, htext, ?_⟩
    simp [Value.decode, htext, Value.json]

/-- **What the supervisor finds** in a header whose texts are UTF-8. -/
theorem recovers_addFields {h : Header} (htext : h.IsText) {fields : List (Key × Value PyStr)}
    (hfields : decodeFields h.moreFields = some fields) :
    Recovers (addFields [] ((.protocolVersion, .number h.protocolVersion) :: fields)) h := by
  have hlookup : ∀ {k : Key}, k ≠ .protocolVersion → ∀ {v : Option (Value Bytes)},
      lastValue k h.moreFields = v →
      lookupField (py k.text)
          (addFields [] ((.protocolVersion, .number h.protocolVersion) :: fields)) =
        (v.bind Value.decode).map Value.json := by
    intro k hk v hv
    rw [get_addFields hfields hk, hv]
  have hget : ∀ {k : Key}, k ≠ .protocolVersion → ∀ {v : Value Bytes} {w : Value PyStr},
      lastValue k h.moreFields = some v → v.decode = some w →
      Runtime.Fields.get
          (addFields [] ((.protocolVersion, .number h.protocolVersion) :: fields)) (py k.text) =
        w.json := by
    intro k hk v w hv hw
    rw [Runtime.Fields.get, Runtime.Fields.getD, hlookup hk hv, Option.bind_some, hw]
    rfl
  constructor
  · refine hget (k := .messageType) (by decide) (v := .text (cstr h.messageType.text))
      (w := .text (py h.messageType.text)) ?_ ?_
    · simp [Header.moreFields, lastValue_append, lastValue]
    · simp [Value.decode, utf8Decode_type]
  · refine hget (k := .requestId) (by decide) (v := .number h.requestId) ?_ rfl
    simp [Header.moreFields, lastValue_append, lastValue]
  · refine hget (k := .workerGeneration) (by decide) (v := .number h.workerGeneration) ?_ rfl
    simp [Header.moreFields, lastValue_append, lastValue]
  · refine hget (k := .payloadLength) (by decide) (v := .number h.payloadLength) ?_ rfl
    simp [Header.moreFields, lastValue_append, lastValue]
  · refine foundText_of_lookup (k := .errorCode) htext.2.2.2.1 (hlookup (by decide) ?_)
    simp [Header.moreFields, lastValue_append, lastValue]
  · refine foundText_of_lookup (k := .errorMessage) htext.2.2.2.2 (hlookup (by decide) ?_)
    simp [Header.moreFields, lastValue_append, lastValue]

/-- The checks of {lit}`recv_message` let a recovered header through. -/
theorem readHeader_of_loads {h : Header} {payload : Bytes} (hs : h.Sendable payload)
    (hinfer : h.messageType = .infer → payload.length ≤ maxTensorBytes) {limit : Nat}
    {js : Bytes} {rep : Runtime.Fields} (hloads : loads limit js = .ok (.obj rep))
    (hprotocol : lookupField (py "protocol_version") rep = some (.int 1))
    (hrecovers : Recovers rep h) :
    Runtime.readHeader limit js = .ok (rep, payload.length) := by
  have hknown : Runtime.knownType rep = true := by
    have hall : ∀ t : MessageType, t ≠ .unknown →
        Runtime.messageTypes.any (fun name => (Json.str (py t.text)).eqStr name) = true := by
      intro t ht
      cases t <;> first | decide | exact absurd rfl ht
    rw [Runtime.knownType, hrecovers.messageType]
    exact hall h.messageType hs.messageType
  have hlength : Runtime.Fields.getD rep (py "payload_length") (.int 0) =
      .int payload.length := by
    have hget := hrecovers.payloadLength
    rw [hs.payloadLength] at hget
    unfold Runtime.Fields.get Runtime.Fields.getD at hget
    unfold Runtime.Fields.getD
    cases hfound : lookupField (py "payload_length") rep with
    | none =>
        rw [hfound] at hget
        contradiction
    | some j =>
        rw [hfound] at hget
        exact hget
  have hlimit : ¬ ((payload.length : Int) < 0 ∨
      (payload.length : Int) > (Runtime.maxModelBytes : Int)) := by
    have hmodel : payload.length ≤ Runtime.maxModelBytes := hs.payload
    omega
  have htensor : (Runtime.isType rep (py "INFER") &&
      decide ((payload.length : Int) > (Runtime.maxTensorBytes : Int))) = false := by
    by_cases htype : h.messageType = .infer
    · have hbound : payload.length ≤ Runtime.maxTensorBytes := hinfer htype
      rw [Bool.and_eq_false_iff]
      right
      simp only [decide_eq_false_iff_not]
      omega
    · have hall : ∀ t : MessageType, t ≠ .infer →
          (Json.str (py t.text)).eqStr (py "INFER") = false := by
        intro t ht
        cases t <;> first | decide | exact absurd rfl ht
      rw [Runtime.isType, hrecovers.messageType, hall h.messageType htype]
      rfl
  unfold Runtime.readHeader
  rw [hloads]
  simp only [bind, Except.bind, Json.get, hprotocol, Option.getD_some, hknown, hlength, Json.toInt]
  rw [if_neg (by decide), if_neg (by decide), if_neg hlimit, htensor]
  rfl

/-- A header that is text is read, and says what was sent; another one is refused. -/
theorem readHeader_headerToJson {h : Header} {payload : Bytes} (hs : h.Sendable payload)
    (hinfer : h.messageType = .infer → payload.length ≤ maxTensorBytes) {limit : Nat}
    (hlimit : 3 ≤ limit) :
    (h.IsText → ∃ rep, Runtime.readHeader limit (headerToJson h) = .ok (rep, payload.length) ∧
        Recovers rep h) ∧
      (¬ h.IsText → Runtime.readHeader limit (headerToJson h) = .error .valueError) := by
  have hversion : h.protocolVersion.natAbs < 2 ^ 64 := by
    rw [hs.protocolVersion]
    decide
  have hloads := loads_headerToJson h hlimit hversion fun fields hfields =>
    decodeFields_sound hs.typed.isWord hfields
  refine ⟨fun htext => ?_, fun htext => ?_⟩
  · obtain ⟨fields, hfields⟩ := Option.isSome_iff_exists.mp ((decodeFields_moreFields h).mpr htext)
    have hrecovers := recovers_addFields htext hfields
    have hprotocol : lookupField (py "protocol_version")
        (addFields [] ((.protocolVersion, .number h.protocolVersion) :: fields)) =
          some (.int 1) := by
      have hnone : lastValue .protocolVersion fields = none := by
        rw [(lastValue_decodeFields .protocolVersion hfields).1]
        simp [Header.moreFields, lastValue_append, lastValue]
      refine (lookupField_addFields .protocolVersion _ []).trans ?_
      rw [lastValue, hnone, if_pos rfl, hs.protocolVersion]
      rfl
    rw [hfields] at hloads
    exact ⟨_, readHeader_of_loads hs hinfer hloads hprotocol hrecovers, hrecovers⟩
  · have hnone : decodeFields h.moreFields = none := by
      rw [← Option.not_isSome_iff_eq_none]
      exact fun hsome => htext ((decodeFields_moreFields h).mp hsome)
    rw [hnone] at hloads
    unfold Runtime.readHeader
    rw [hloads]
    rfl

/-- What a reply that was written consists of. -/
theorem sendMessage_ok {h : Header} {payload wire : Bytes}
    (hsent : sendMessage h payload = .ok wire) :
    wire = frame (headerToJson h) payload ∧ (headerToJson h).length ≤ maxHeaderBytes ∧
      (h.messageType = .infer → payload.length ≤ maxTensorBytes) := by
  unfold sendMessage at hsent
  split_ifs at hsent with hlen hlarge
  refine ⟨(Except.ok.inj hsent).symm, Nat.not_lt.mp hlen, fun htype => ?_⟩
  rw [htype] at hlarge
  exact Nat.not_lt.mp fun hgt => hlarge ⟨hgt, by decide⟩

/-- The supervisor refuses a whole frame whose header it refuses. -/
theorem recvMessage_frame_refused {js payload : Bytes} (hpos : js ≠ [])
    (hlen : js.length ≤ maxHeaderBytes) {limit : Nat} (starved : PyExc) {e : PyExc}
    (hread : Runtime.readHeader limit js = .error e) :
    Runtime.recvMessage limit starved (frame js payload) = .failed e (4 + js.length) := by
  have hfield : Runtime.recvExact 4 (frame js payload) =
      some (Runtime.packLength js.length, js ++ payload) :=
    Runtime.recvExact_eq_some.mpr ⟨by simp [frame], packLength_length _⟩
  have hjs : Runtime.recvExact js.length (js ++ payload) = some (js, payload) :=
    Runtime.recvExact_eq_some.mpr ⟨rfl, rfl⟩
  have hbound : js.length ≤ 16384 := hlen
  have hlength : Runtime.unpackLength (Runtime.packLength js.length) = js.length :=
    unpackLength_packLength (by omega)
  have hne : js.length ≠ 0 := fun hzero => hpos (List.eq_nil_of_length_eq_zero hzero)
  have hin : ¬ (js.length = 0 ∨ js.length > Runtime.maxHeaderBytes) := by
    rw [not_or]
    exact ⟨hne, Nat.not_lt.mpr hlen⟩
  simp only [Runtime.recvMessage, hfield, hlength, if_neg hin, hjs, hread]

/-- **The replies that arrive as they were sent**: those whose texts are UTF-8. -/
theorem reply_read_iff {h : Header} {payload wire : Bytes} (hs : h.Sendable payload)
    (hsent : sendMessage h payload = .ok wire) {limit : Nat} (hlimit : 3 ≤ limit)
    (starved : PyExc) :
    (∃ rep, Runtime.recvMessage limit starved wire = .message rep payload wire.length ∧
        Recovers rep h) ↔ h.IsText := by
  obtain ⟨rfl, hlen, hinfer⟩ := sendMessage_ok hsent
  have hpos : headerToJson h ≠ [] := by
    rw [headerToJson_eq]
    simp
  obtain ⟨haccepted, hrefused⟩ := readHeader_headerToJson hs hinfer hlimit
  constructor
  · rintro ⟨rep, hrecv, -⟩
    by_contra htext
    rw [recvMessage_frame_refused hpos hlen starved (hrefused htext)] at hrecv
    exact Runtime.Received.noConfusion hrecv
  · intro htext
    obtain ⟨rep, hread, hrecovers⟩ := haccepted htext
    refine ⟨rep, ?_, hrecovers⟩
    generalize headerToJson h = js at hpos hlen hread
    have hbound : js.length ≤ 16384 := hlen
    have hne : js.length ≠ 0 := fun hzero => hpos (List.eq_nil_of_length_eq_zero hzero)
    have hused : (frame js payload).length = 4 + js.length + payload.length := by
      rw [frame, List.length_append, List.length_append, packLength_length]
    have hsplit : frame js payload = Runtime.packLength js.length ++ js ++ payload ++ [] :=
      (List.append_nil _).symm
    exact Runtime.recvMessage_eq_message.mpr ⟨_, js, [], hsplit, packLength_length _,
      unpackLength_packLength (by omega), hne, hlen, hread, hused⟩

/-- A refused LOAD, with the path in the message. -/
def refusedLoad : Header where
  messageType := .status
  requestId := 7
  workerGeneration := 2
  errorCode := cstr "INVALID_MODEL"
  errorMessage := cstr "no \"cam" ++ [0xC3, 0xA9] ++ cstr "ra\"\n"

/-- A reply with quotes and a line break arrives. -/
theorem reply_read_iff_refusedLoad :
    ∃ rep, Runtime.recvMessage 1000 .connectionError (frame (headerToJson refusedLoad) []) =
        .message rep [] (frame (headerToJson refusedLoad) []).length ∧
      Recovers rep refusedLoad :=
  (reply_read_iff ⟨⟨by decide, by decide, by decide, by decide, by decide⟩, rfl, by decide, rfl,
    by decide⟩ (by decide +kernel) (by decide) .connectionError).mpr (by decide +kernel)

/-- A message in Latin-1. -/
def latinMessage : Header where
  messageType := .status
  requestId := 7
  errorCode := cstr "INVALID_MODEL"
  errorMessage := [0x63, 0x61, 0x6D, 0xE9, 0x72, 0x61]

/-- **A message that is no UTF-8 does not arrive**: the supervisor refuses the header. -/
theorem latinMessage_refused :
    sendMessage latinMessage [] = .ok (frame (headerToJson latinMessage) []) ∧
      ¬ ∃ rep used, Runtime.recvMessage 1000 .connectionError
        (frame (headerToJson latinMessage) []) = .message rep [] used := by
  have hread : Runtime.readHeader 1000 (headerToJson latinMessage) = .error .valueError := by
    have hnone : utf8Decode (headerToJson latinMessage) = none := by decide +kernel
    unfold Runtime.readHeader loads
    rw [hnone]
    rfl
  have hpos : headerToJson latinMessage ≠ [] := by decide +kernel
  have hlen : (headerToJson latinMessage).length ≤ maxHeaderBytes := by decide +kernel
  refine ⟨by decide +kernel, ?_⟩
  rintro ⟨rep, used, hmessage⟩
  rw [recvMessage_frame_refused hpos hlen .connectionError hread] at hmessage
  exact Runtime.Received.noConfusion hmessage

end Native
end FrigateXdna
