import FrigateXdna.Library.Search
import FrigateXdna.Runtime.Ipc

/-!
# The wire protocol of the native worker

{lit}`protocol.cpp`: headers, their JSON text, the small extractor that reads it back, the
validation of a header and of a tensor, and the framing on the inherited socket.  A
position in a string is given as the text from it on, and {lean}`none` is {lit}`npos`.
The socket is the list of bytes it still delivers; every read after them fails, at the end
of the file or with an error.

Main results:

- Theorem {lit}`recvMessage_frame`: what a receive makes of a whole frame.
- Theorem {lit}`validateHeader_eq_none_iff`: the headers that are accepted.
-/

namespace FrigateXdna
namespace Native

open Python

/-! ## Headers -/

/-- The bytes of a string literal. -/
def cstr (s : String) : Bytes :=
  (py s).map UInt8.ofNat

/-- Bytes are ASCII when a look at each of them says so. -/
theorem ascii_of_all {data : Bytes} (h : data.all (fun b => b.toNat < 0x80) = true) :
    ∀ b ∈ data, b.toNat < 0x80 := by
  simpa using h

/-- {lit}`PROTOCOL_VERSION`. -/
def protocolVersion : Int := 1

/-- {lit}`MAX_HEADER_BYTES`. -/
def maxHeaderBytes : Nat := 16 * 1024

/-- {lit}`MAX_TENSOR_BYTES`. -/
def maxTensorBytes : Nat := 16 * 1024 * 1024

/-- {lit}`MAX_MODEL_BYTES`. -/
def maxModelBytes : Nat := 256 * 1024 * 1024

/-- {lit}`RESULT_BYTES`. -/
def resultBytes : Nat := 20 * 6 * 4

/-- {lit}`MessageType`. -/
inductive MessageType
  | load
  | infer
  | result
  | status
  | shutdown
  | unknown
deriving DecidableEq, Repr

/-- {lit}`parse_message_type`. -/
def parseMessageType (s : Bytes) : MessageType :=
  if s = cstr "LOAD" ∨ s = cstr "load" then .load
  else if s = cstr "INFER" ∨ s = cstr "infer" then .infer
  else if s = cstr "RESULT" ∨ s = cstr "result" then .result
  else if s = cstr "STATUS" ∨ s = cstr "status" then .status
  else if s = cstr "SHUTDOWN" ∨ s = cstr "shutdown" then .shutdown
  else .unknown

/-- {lit}`to_string`. -/
def MessageType.text : MessageType → String
  | .load => "LOAD"
  | .infer => "INFER"
  | .result => "RESULT"
  | .status => "STATUS"
  | .shutdown => "SHUTDOWN"
  | .unknown => "UNKNOWN"

/-- {lit}`TensorSpec`; the dimensions are {lit}`int`. -/
structure TensorSpec where
  shape : List Int := []
  dtype : Bytes := []
deriving DecidableEq, Repr

/-- {lit}`Header`; the request id and the generation are {lit}`int64_t`, the class count
is {lit}`int`. -/
structure Header where
  protocolVersion : Int := Native.protocolVersion
  messageType : MessageType := .unknown
  requestId : Int := 0
  workerGeneration : Int := 0
  artifactPath : Bytes := []
  servingDigest : Bytes := []
  classCount : Int := 0
  tensorSpec : TensorSpec := {}
  payloadLength : Nat := 0
  errorCode : Bytes := []
  errorMessage : Bytes := []
deriving DecidableEq, Repr

/-- A conversion to {lit}`int`, which wraps. -/
def toInt32 (z : Int) : Int :=
  z.bmod (2 ^ 32)

theorem toInt32_of_bounds {z : Int} (hlo : -2 ^ 31 ≤ z) (hhi : z < 2 ^ 31) :
    toInt32 z = z := by
  unfold toInt32
  rw [Int.bmod_eq_of_le] <;> omega

/-! ## Writing a header -/

/-- An upper-case hexadecimal digit. -/
def hexUpper (d : Nat) : UInt8 :=
  UInt8.ofNat (if d < 10 then 48 + d else 55 + d)

/-- One byte of {lit}`json_escape`. -/
def escapeByte (c : UInt8) : Bytes :=
  if c = 34 ∨ c = 92 then [92, c]
  else if c = 10 then cstr "\\n"
  else if c = 13 then cstr "\\r"
  else if c = 8 then cstr "\\b"
  else if c = 12 then cstr "\\f"
  else if c = 9 then cstr "\\t"
  else if c < 0x20 then cstr "\\u00" ++ [hexUpper (c.toNat / 16), hexUpper (c.toNat % 16)]
  else [c]

/-- {lit}`json_escape`. -/
def jsonEscape (s : Bytes) : Bytes :=
  s.flatMap escapeByte

/-- {lit}`oss << z`. -/
def decimal (z : Int) : Bytes :=
  (intRepr z).map UInt8.ofNat

/-- {lit}`,"key":"value"`, unless the value is empty. -/
def textField (key : String) (value : Bytes) : Bytes :=
  if value.isEmpty then []
  else cstr ",\"" ++ cstr key ++ cstr "\":\"" ++ jsonEscape value ++ cstr "\""

/-- The dimensions between commas. -/
def shapeText : List Int → Bytes
  | [] => []
  | [d] => decimal d
  | d :: rest => decimal d ++ cstr "," ++ shapeText rest

/-- {lit}`,"tensor_spec":…`, unless both parts are empty. -/
def tensorField (spec : TensorSpec) : Bytes :=
  if spec.shape.isEmpty && spec.dtype.isEmpty then []
  else
    cstr ",\"tensor_spec\":\x7b\"shape\":[" ++ shapeText spec.shape ++ cstr "],\"dtype\":\"" ++
      jsonEscape spec.dtype ++ cstr "\"\x7d"

/-- {lit}`header_to_json`. -/
def headerToJson (h : Header) : Bytes :=
  cstr "\x7b\"protocol_version\":" ++ decimal h.protocolVersion ++
    cstr ",\"message_type\":\"" ++ cstr h.messageType.text ++
    cstr "\",\"request_id\":" ++ decimal h.requestId ++
    cstr ",\"worker_generation\":" ++ decimal h.workerGeneration ++
    textField "artifact_path" h.artifactPath ++
    textField "serving_digest" h.servingDigest ++
    tensorField h.tensorSpec ++
    cstr ",\"payload_length\":" ++ decimal h.payloadLength ++
    cstr ",\"class_count\":" ++ decimal h.classCount ++
    textField "error_code" h.errorCode ++
    textField "error_message" h.errorMessage ++ cstr "\x7d"

/-! ## Reading a header -/

/-- {lit}`s.find(part)`. -/
abbrev find (part s : Bytes) : Option Bytes :=
  Library.search part s

/-- {lit}`s.find(b)` for one character. -/
abbrev findByte (b : UInt8) (s : Bytes) : Option Bytes :=
  Library.searchOne b s

/-- {lit}`isspace`, in the C locale. -/
def isSpace (c : UInt8) : Bool :=
  decide (9 ≤ c ∧ c ≤ 13) || c == 32

/-- The text without white space at both ends. -/
def trim (s : Bytes) : Bytes :=
  ((s.dropWhile isSpace).reverse.dropWhile isSpace).reverse

/-- Whether a byte is a decimal digit. -/
def isDigit (c : UInt8) : Bool :=
  decide (48 ≤ c ∧ c ≤ 57)

/-- The number that decimal digits spell. -/
def digitsValue (digits : Bytes) : Nat :=
  digits.foldl (fun n c => 10 * n + (c.toNat - 48)) 0

/-- A sign, if there is one, and what follows it. -/
def splitSign : Bytes → Bool × Bytes
  | 43 :: rest => (false, rest)
  | 45 :: rest => (true, rest)
  | rest => (false, rest)

/-- {lit}`strtoll`: white space, a sign, digits, and then anything; {lean}`none` when
there is no digit. -/
def strtoll (s : Bytes) : Option Int :=
  let (neg, body) := splitSign (s.dropWhile isSpace)
  let digits := body.takeWhile isDigit
  if digits.isEmpty then none
  else some (if neg then -(digitsValue digits : Int) else (digitsValue digits : Int))

/-- {lit}`std::stoll`; {lean}`none` is an exception. -/
def stoll (s : Bytes) : Option Int :=
  (strtoll s).filter fun z => decide (-2 ^ 63 ≤ z ∧ z < 2 ^ 63)

/-- {lit}`std::stoi`. -/
def stoi (s : Bytes) : Option Int :=
  (strtoll s).filter fun z => decide (-2 ^ 31 ≤ z ∧ z < 2 ^ 31)

/-- A key between quotes. -/
abbrev quoted (key : Bytes) : Bytes :=
  Library.enclosed 34 key

/-- What follows the colon after the first place where the key stands between quotes. -/
def fieldValue (js key : Bytes) : Option Bytes :=
  ((find (quoted key) js).bind (findByte 58)).map fun colon =>
    (colon.drop 1).dropWhile isSpace

/-- A string up to its closing quote; a backslash stands for the byte behind it. -/
def unescape : Bytes → Bytes
  | [] => []
  | [c] => if c = 34 then [] else [c]
  | c :: d :: rest =>
      if c = 34 then []
      else if c = 92 then d :: unescape rest
      else c :: unescape (d :: rest)

/-- The string that a value starts with. -/
def textValue : Bytes → Bytes
  | 34 :: rest => unescape rest
  | _ => []

/-- {lit}`extract_string`. -/
def extractString (js key : Bytes) : Bytes :=
  ((fieldValue js key).map textValue).getD []

/-- Whether a byte ends a number. -/
def endsNumber (c : UInt8) : Bool :=
  c == 44 || c == 125

/-- The number that a value starts with, up to a comma or a brace. -/
def numberValue (value : Bytes) : Option Int :=
  if value.any endsNumber then stoll (trim (value.takeWhile fun c => !endsNumber c)) else none

/-- {lit}`extract_int64`. -/
def extractInt64 (js key : Bytes) : Option Int :=
  (fieldValue js key).bind numberValue

/-- {lit}`extract_uint64`. -/
def extractUint64 (js key : Bytes) : Option Nat :=
  match extractInt64 js key with
  | none => none
  | some z => if z < 0 then none else some z.toNat

/-- The tokens between commas. -/
def splitCommas : Bytes → List Bytes
  | [] => [[]]
  | c :: cs =>
      if c = 44 then [] :: splitCommas cs
      else
        match splitCommas cs with
        | [] => [[c]]
        | token :: rest => (c :: token) :: rest

/-- The dimensions after {lit}`"tensor_spec"`; tokens that are no numbers are skipped. -/
def extractShape (spec : Bytes) : List Int :=
  match (find (quoted (cstr "shape")) spec).bind (findByte 91) with
  | none => []
  | some list =>
      if (list.drop 1).contains 93 then
        (splitCommas ((list.drop 1).takeWhile fun c => c != 93)).filterMap fun token =>
          if (trim token).isEmpty then none else stoi (trim token)
      else []

/-- The type after {lit}`"tensor_spec"`, up to the next quote. -/
def extractDtype (spec : Bytes) : Bytes :=
  match ((find (quoted (cstr "dtype")) spec).bind (findByte 58)).bind (findByte 34) with
  | none => []
  | some quote =>
      if (quote.drop 1).contains 34 then (quote.drop 1).takeWhile fun c => c != 34 else []

/-- The tensor of a header. -/
def extractTensor (js : Bytes) : TensorSpec :=
  match find (quoted (cstr "tensor_spec")) js with
  | none => {}
  | some spec => { shape := extractShape spec, dtype := extractDtype spec }

/-- {lit}`message_type`, or else {lit}`type`. -/
def extractType (js : Bytes) : Bytes :=
  if (extractString js (cstr "message_type")).isEmpty then extractString js (cstr "type")
  else extractString js (cstr "message_type")

/-- {lit}`json_to_header`: the header as far as it was filled, with the error. -/
def jsonToHeader (js : Bytes) : Header × Option Bytes :=
  if js.length > maxHeaderBytes then ({}, some (cstr "header exceeds 16 KiB"))
  else
    match extractInt64 js (cstr "protocol_version") with
    | none => ({}, some (cstr "missing protocol_version"))
    | some version =>
        let h : Header :=
          { protocolVersion := toInt32 version
            messageType := parseMessageType (extractType js) }
        if h.messageType = .unknown then (h, some (cstr "unknown message_type"))
        else
          ({ h with
              requestId := (extractInt64 js (cstr "request_id")).getD 0
              workerGeneration := (extractInt64 js (cstr "worker_generation")).getD 0
              artifactPath := extractString js (cstr "artifact_path")
              servingDigest := extractString js (cstr "serving_digest")
              errorCode := extractString js (cstr "error_code")
              errorMessage := extractString js (cstr "error_message")
              payloadLength := (extractUint64 js (cstr "payload_length")).getD 0
              classCount := toInt32 ((extractInt64 js (cstr "class_count")).getD 0)
              tensorSpec := extractTensor js }, none)

/-- A header of a known type is read in full. -/
theorem jsonToHeader_known {js : Bytes} {version : Int} (hlen : js.length ≤ maxHeaderBytes)
    (hversion : extractInt64 js (cstr "protocol_version") = some version)
    (hkind : parseMessageType (extractType js) ≠ .unknown) :
    jsonToHeader js =
      ({ protocolVersion := toInt32 version
         messageType := parseMessageType (extractType js)
         requestId := (extractInt64 js (cstr "request_id")).getD 0
         workerGeneration := (extractInt64 js (cstr "worker_generation")).getD 0
         artifactPath := extractString js (cstr "artifact_path")
         servingDigest := extractString js (cstr "serving_digest")
         errorCode := extractString js (cstr "error_code")
         errorMessage := extractString js (cstr "error_message")
         payloadLength := (extractUint64 js (cstr "payload_length")).getD 0
         classCount := toInt32 ((extractInt64 js (cstr "class_count")).getD 0)
         tensorSpec := extractTensor js }, none) := by
  unfold jsonToHeader
  rw [if_neg (Nat.not_lt.mpr hlen), hversion]
  exact if_neg hkind

/-- A header of another type is refused. -/
theorem jsonToHeader_unknown {js : Bytes} (hkind : parseMessageType (extractType js) = .unknown) :
    (jsonToHeader js).2 ≠ none := by
  unfold jsonToHeader
  split
  · simp
  · split
    · simp
    · rw [if_pos hkind]
      simp

/-! ## Validation -/

/-- The bound on the payload of a message. -/
def payloadLimit : MessageType → Nat
  | .load => maxModelBytes
  | .result => resultBytes
  | _ => maxTensorBytes

/-- Whether a text has two dots in a row. -/
def traverses (path : Bytes) : Bool :=
  (find (cstr "..") path).isSome

/-- {lit}`validate_header`: the error, if there is one. -/
def validateHeader (h : Header) : Option Bytes :=
  if h.protocolVersion ≠ protocolVersion then some (cstr "bad protocol_version")
  else if h.messageType = .unknown then some (cstr "unknown message_type")
  else if h.requestId < 0 then some (cstr "negative request_id")
  else if h.workerGeneration < 0 then some (cstr "negative worker_generation")
  else if h.payloadLength > payloadLimit h.messageType then
    some (cstr "payload_length exceeds bound")
  else if h.errorMessage.length > 1024 then some (cstr "error_message too long")
  else if h.messageType = .load ∧ h.artifactPath.isEmpty then
    some (cstr "LOAD requires artifact_path")
  else if h.artifactPath.length > 4096 then some (cstr "artifact_path too long")
  else if traverses h.artifactPath then some (cstr "artifact_path traversal")
  else none

/-- The product of the dimensions, as long as it stays within the bound. -/
def elementCount : List Int → Nat → Option Nat
  | [], elems => some elems
  | d :: rest, elems =>
      if elems > maxTensorBytes / 4 then none else elementCount rest (elems * d.toNat)

/-- {lit}`validate_tensor_spec`: the error, if there is one. -/
def validateTensorSpec (spec : TensorSpec) (payloadLen : Nat) : Option Bytes :=
  if spec.dtype ≠ cstr "float32" then some (cstr "unsupported dtype (only float32)")
  else if spec.shape.length ≠ 4 then some (cstr "rank must be 4")
  else if spec.shape[0]? ≠ some 1 ∨ spec.shape[1]? ≠ some 3 then
    some (cstr "shape must be [1,3,H,W]")
  else if spec.shape.any (fun d => decide (d ≤ 0 ∨ 4096 < d)) then
    some (cstr "invalid tensor dimension")
  else
    match elementCount spec.shape 1 with
    | none => some (cstr "tensor exceeds 16 MiB")
    | some elems =>
        if elems * 4 > maxTensorBytes then some (cstr "tensor exceeds 16 MiB bound")
        else if payloadLen ≠ elems * 4 then some (cstr "byte count != shape product")
        else none

/-- The headers that are accepted. -/
theorem validateHeader_eq_none_iff {h : Header} :
    validateHeader h = none ↔ h.protocolVersion = protocolVersion ∧
      h.messageType ≠ .unknown ∧ 0 ≤ h.requestId ∧ 0 ≤ h.workerGeneration ∧
      h.payloadLength ≤ payloadLimit h.messageType ∧ h.errorMessage.length ≤ 1024 ∧
      (h.messageType = .load → h.artifactPath ≠ []) ∧ h.artifactPath.length ≤ 4096 ∧
      traverses h.artifactPath = false := by
  unfold validateHeader
  split_ifs <;> simp_all

/-! ## Framing -/

/-- A length prefix, a header and a payload. -/
def frame (js payload : Bytes) : Bytes :=
  Runtime.packLength js.length ++ js ++ payload

/-- {lit}`send_message`: the bytes it writes, or the error before it writes any. -/
def sendMessage (h : Header) (payload : Bytes) : Except Bytes Bytes :=
  if (headerToJson h).length > maxHeaderBytes then .error (cstr "header too large")
  else if payload.length > maxTensorBytes ∧ h.messageType ≠ .result then
    .error (cstr "payload too large")
  else
    .ok (frame (headerToJson h) payload)

/-- {lit}`read_n`: the next {lit}`n` bytes, and what stays in the socket. -/
def readN (n : Nat) (stream : Bytes) : Option (Bytes × Bytes) :=
  Runtime.recvExact n stream

/-- How {lit}`recv_message` returns: the header as far as it was filled, the payload, the
error, and what stays in the socket. -/
structure Received where
  header : Header := {}
  payload : Bytes := []
  err : Option Bytes
  rest : Bytes
deriving DecidableEq, Repr

/-- {lit}`recv_message` behind the header bytes. -/
def recvPayload (js stream : Bytes) : Received :=
  match jsonToHeader js with
  | (h, some err) => { header := h, err := some err, rest := stream }
  | (h, none) =>
      match validateHeader h with
      | some err => { header := h, err := some err, rest := stream }
      | none =>
          match readN h.payloadLength stream with
          | none => { header := h, err := some (cstr "read payload failed"), rest := [] }
          | some (payload, rest) => { header := h, payload, err := none, rest }

/-- {lit}`recv_message`. -/
def recvMessage (stream : Bytes) : Received :=
  match readN 4 stream with
  | none => { err := some (cstr "read header_len failed"), rest := [] }
  | some (field, stream) =>
      let hlen := Runtime.unpackLength field
      if hlen = 0 ∨ hlen > maxHeaderBytes then
        { err := some (cstr "header length out of bounds"), rest := stream }
      else
        match readN hlen stream with
        | none => { err := some (cstr "read header failed"), rest := [] }
        | some (js, stream) => recvPayload js stream

/-! ## Whole frames -/

theorem packLength_length (n : Nat) : (Runtime.packLength n).length = 4 :=
  rfl

/-- The length prefix is read back. -/
theorem unpackLength_packLength {n : Nat} (h : n < 2 ^ 32) :
    Runtime.unpackLength (Runtime.packLength n) = n := by
  simp only [Runtime.unpackLength, Runtime.packLength, List.map_cons, List.map_nil,
    List.foldl_cons, List.foldl_nil, UInt8.toNat_ofNat']
  omega

theorem readN_append (taken rest : Bytes) :
    readN taken.length (taken ++ rest) = some (taken, rest) :=
  Runtime.recvExact_eq_some.mpr ⟨rfl, rfl⟩

/-- **A receive of a whole frame** refuses its length, or looks at its header. -/
theorem recvMessage_frame {js : Bytes} (hlen : js.length < 2 ^ 32) (payload more : Bytes) :
    recvMessage (frame js payload ++ more) =
      if js.length = 0 ∨ js.length > maxHeaderBytes then
        { err := some (cstr "header length out of bounds"), rest := js ++ (payload ++ more) }
      else recvPayload js (payload ++ more) := by
  have hfield : readN 4 (frame js payload ++ more) =
      some (Runtime.packLength js.length, js ++ (payload ++ more)) := by
    have happend := readN_append (Runtime.packLength js.length) (js ++ (payload ++ more))
    rw [packLength_length] at happend
    simpa [frame] using happend
  unfold recvMessage
  simp only [hfield, unpackLength_packLength hlen, readN_append]

/-- The end of the socket is met at once. -/
theorem recvMessage_nil :
    recvMessage [] = { err := some (cstr "read header_len failed"), rest := [] } :=
  rfl

end Native
end FrigateXdna
