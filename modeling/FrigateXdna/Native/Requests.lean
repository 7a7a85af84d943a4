import FrigateXdna.Native.Extract
import FrigateXdna.Runtime.Native

/-!
# Request headers as the native worker reads them

The supervisor prints the header of a LOAD, an INFER or a SHUTDOWN with
{lit}`json.dumps`; the worker takes it apart with {lit}`json_to_header`.

Main results:

- Theorem {lit}`encodeHeader_request`: the printed fields of a request.
- Theorems {lit}`jsonToHeader_load`, {lit}`jsonToHeader_infer` and
  {lit}`jsonToHeader_shutdown`: the header that the worker makes of them.
-/

namespace FrigateXdna
namespace Native

open Python Library

/-! ## Requests -/

/-- What the supervisor asks of a worker. -/
inductive Request
  | load (artifactPath servingDigest : PyStr) (classCount : Int)
  | infer (shape : List Int) (dtype : PyStr)
  | shutdown
deriving DecidableEq, Repr

/-- The INFER header with any dimensions and any type. -/
def inferFields (requestId : Nat) (shape : List Int) (dtype : PyStr) (generation : Int) :
    Runtime.Fields :=
  [(py "message_type", .str (py "INFER")),
    (py "request_id", .int requestId),
    (py "worker_generation", .int generation),
    (py "tensor_spec", .obj
      [(py "shape", .arr (shape.map .int)), (py "dtype", .str dtype)])]

/-- The SHUTDOWN header of {lit}`retire`. -/
def shutdownFields (requestId : Nat) (generation : Int) : Runtime.Fields :=
  [(py "message_type", .str (py "SHUTDOWN")),
    (py "request_id", .int requestId),
    (py "worker_generation", .int generation)]

namespace Request

/-- The header of a request. -/
def fields (requestId generation : Nat) : Request → Runtime.Fields
  | .load path digest classCount =>
      Runtime.NativeWorker.loadHeader requestId path generation digest classCount
  | .infer shape dtype => inferFields requestId shape dtype generation
  | .shutdown => shutdownFields requestId generation

/-- The type of a request. -/
def messageType : Request → MessageType
  | .load _ _ _ => .load
  | .infer _ _ => .infer
  | .shutdown => .shutdown

/-- The path that a request names. -/
def artifactPath : Request → PyStr
  | .load path _ _ => path
  | _ => []

/-- The digest that a request names. -/
def servingDigest : Request → PyStr
  | .load _ digest _ => digest
  | _ => []

/-- The class count that a request names. -/
def classCount : Request → Int
  | .load _ _ n => n
  | _ => 0

/-- The dimensions that a request names. -/
def shape : Request → List Int
  | .infer shape _ => shape
  | _ => []

/-- The tensor type that a request names. -/
def dtype : Request → PyStr
  | .infer _ dtype => dtype
  | _ => []

/-- The class count and the dimensions fit in 32 bits. -/
def Bounded (q : Request) : Prop :=
  (-2 ^ 31 ≤ q.classCount ∧ q.classCount < 2 ^ 31) ∧
    ∀ d ∈ q.shape, -2 ^ 31 ≤ d ∧ d < 2 ^ 31

instance (q : Request) : Decidable q.Bounded :=
  inferInstanceAs (Decidable (_ ∧ _))

end Request

/-- The INFER header of {lit}`infer` is the one for float32. -/
theorem inferFields_float32 (requestId : Nat) (shape : List Int) (generation : Int) :
    inferFields requestId shape (py "float32") generation =
      Runtime.NativeWorker.inferHeader requestId (shape.map .int) generation :=
  rfl

/-- A header says what was asked. -/
structure Conveys (h : Header) (requestId generation payloadLength : Nat) (q : Request) :
    Prop where
  messageType : h.messageType = q.messageType
  requestId : h.requestId = requestId
  workerGeneration : h.workerGeneration = generation
  artifactPath : utf8Decode h.artifactPath = some q.artifactPath
  servingDigest : utf8Decode h.servingDigest = some q.servingDigest
  classCount : h.classCount = q.classCount
  shape : h.tensorSpec.shape = q.shape
  dtype : utf8Decode h.tensorSpec.dtype = some q.dtype
  payloadLength : h.payloadLength = payloadLength

/-! ## The printed fields -/

/-- The dimensions as {lit}`json.dumps` prints them between the brackets. -/
def printedShape : List Int → Bytes
  | [] => []
  | [d] => decimal d
  | d :: e :: rest => decimal d ++ comma ++ printedShape (e :: rest)

/-- The printed fields of a request, behind the opening brace. -/
def Request.items (requestId generation payloadLength : Nat) : Request → List Item
  | .load path digest classCount =>
      [.text .artifactPath path comma,
        .raw .classCount (decimal classCount ++ comma),
        .text .messageType (py "LOAD") comma,
        .raw .payloadLength (decimal payloadLength ++ comma),
        .raw .protocolVersion (decimal Runtime.protocolVersion ++ comma),
        .raw .requestId (decimal requestId ++ comma),
        .text .servingDigest digest comma,
        .raw .workerGeneration (decimal generation ++ brace)]
  | .infer shape dtype =>
      [.text .messageType (py "INFER") comma,
        .raw .payloadLength (decimal payloadLength ++ comma),
        .raw .protocolVersion (decimal Runtime.protocolVersion ++ comma),
        .raw .requestId (decimal requestId ++ comma),
        .raw .tensorSpec (cstr "\x7b"),
        .text .dtype dtype comma,
        .raw .shape (91 :: (printedShape shape ++ 93 :: (brace ++ comma))),
        .raw .workerGeneration (decimal generation ++ brace)]
  | .shutdown =>
      [.text .messageType (py "SHUTDOWN") comma,
        .raw .payloadLength (decimal payloadLength ++ comma),
        .raw .protocolVersion (decimal Runtime.protocolVersion ++ comma),
        .raw .requestId (decimal requestId ++ comma),
        .raw .workerGeneration (decimal generation ++ brace)]

/-- The dimensions between the brackets. -/
theorem printedShape_eq (shape : List Int) :
    (joinStr (py ", ") (dumpsList (shape.map .int))).map UInt8.ofNat = printedShape shape := by
  induction shape with
  | nil => rfl
  | cons d rest ih =>
      cases rest with
      | nil => rfl
      | cons e more =>
          have hjoin : joinStr (py ", ") (dumpsList ((d :: e :: more).map .int)) =
              intRepr d ++ (py ", " ++ joinStr (py ", ") (dumpsList ((e :: more).map .int))) := by
            simp [dumpsList, joinStr, dumps]
          rw [hjoin, List.map_append, List.map_append, ih]
          simp only [printedShape, List.append_assoc]
          rfl

/-- A printed text between its quotes. -/
theorem quote_bytes (s : PyStr) :
    (quote s).map UInt8.ofNat = 34 :: (escaped s ++ [34]) := by
  simp only [quote, escaped, List.cons_append, List.map_cons, List.map_append, List.map_nil]
  rfl

/-- The printed tensor of an INFER header. -/
def printedTensor (shape : List Int) (dtype : PyStr) : PyStr :=
  py "\x7b\"dtype\": " ++ (quote dtype ++ (py ", \"shape\": [" ++
    (joinStr (py ", ") (dumpsList (shape.map .int)) ++ 93 :: py "\x7d")))

/-- The keys of a request with their printed values, sorted. -/
def Request.printed (requestId generation payloadLength : Nat) :
    Request → List (PyStr × PyStr)
  | .load path digest classCount =>
      [(py "artifact_path", quote path), (py "class_count", intRepr classCount),
        (py "message_type", quote (py "LOAD")),
        (py "payload_length", intRepr payloadLength),
        (py "protocol_version", intRepr Runtime.protocolVersion),
        (py "request_id", intRepr requestId), (py "serving_digest", quote digest),
        (py "worker_generation", intRepr generation)]
  | .infer shape dtype =>
      [(py "message_type", quote (py "INFER")),
        (py "payload_length", intRepr payloadLength),
        (py "protocol_version", intRepr Runtime.protocolVersion),
        (py "request_id", intRepr requestId),
        (py "tensor_spec", printedTensor shape dtype),
        (py "worker_generation", intRepr generation)]
  | .shutdown =>
      [(py "message_type", quote (py "SHUTDOWN")),
        (py "payload_length", intRepr payloadLength),
        (py "protocol_version", intRepr Runtime.protocolVersion),
        (py "request_id", intRepr requestId),
        (py "worker_generation", intRepr generation)]

/-- The tensor as {lit}`json.dumps` prints it. -/
theorem dumps_tensor (shape : List Int) (dtype : PyStr) :
    dumps (.obj [(py "shape", .arr (shape.map .int)), (py "dtype", .str dtype)]) =
      printedTensor shape dtype := by
  have hsorted : (dumpsFields
      [(py "shape", .arr (shape.map .int)), (py "dtype", .str dtype)]).foldr insertField [] =
      [(py "dtype", quote dtype), (py "shape", dumps (.arr (shape.map .int)))] := rfl
  rw [dumps, printObj, hsorted]
  simp only [List.map_cons, List.map_nil, joinStr, dumps, printedTensor, List.append_assoc,
    List.cons_append]
  rfl

/-- The keys are sorted on the way. -/
theorem Request.printed_eq (q : Request) (requestId generation : Nat) (payload : Bytes) :
    (dumpsFields (Runtime.wireHeader (q.fields requestId generation) payload)).foldr
      insertField [] = q.printed requestId generation payload.length := by
  cases q with
  | load path digest n => rfl
  | infer shape dtype =>
      rw [Request.printed, ← dumps_tensor]
      rfl
  | shutdown => rfl

/-- **A request as it stands on the wire**: its printed fields behind a brace. -/
theorem encodeHeader_request (q : Request) (requestId generation : Nat) (payload : Bytes) :
    Runtime.encodeHeader (Runtime.wireHeader (q.fields requestId generation) payload) =
      123 :: itemsText (q.items requestId generation payload.length) := by
  rw [Runtime.encodeHeader, dumps, printObj, q.printed_eq]
  cases q with
  | load path digest n =>
      simp only [Request.printed, List.map_cons, List.map_nil, joinStr, List.map_append,
        List.append_assoc, List.cons_append, quote_bytes, itemsText, Request.items,
        List.flatMap_cons, List.flatMap_nil, Item.bytes, Item.key, Item.value]
      rfl
  | infer shape dtype =>
      rw [Request.items, ← printedShape_eq]
      simp only [Request.printed, printedTensor, List.map_cons, List.map_nil, joinStr,
        List.map_append, List.append_assoc, List.cons_append, quote_bytes, itemsText,
        List.flatMap_cons, List.flatMap_nil, Item.bytes, Item.key, Item.value]
      rfl
  | shutdown =>
      simp only [Request.printed, List.map_cons, List.map_nil, joinStr, List.map_append,
        List.append_assoc, List.cons_append, quote_bytes, itemsText, Request.items,
        List.flatMap_cons, List.flatMap_nil, Item.bytes, Item.key, Item.value]
      rfl

/-! ## Separators -/

theorem separates_comma : Item.Separates comma := by
  refine ⟨by decide, by decide, fun k => ?_⟩
  cases k <;> decide

/-- Neither a quote nor a colon is in a number with what separates it. -/
theorem number_wellSeparated (k : Key) (z : Int) {sep : Bytes}
    (hsep : 34 ∉ sep ∧ 58 ∉ sep) : (Item.raw k (decimal z ++ sep)).WellSeparated := by
  have hquote : (34 : UInt8) ∉ decimal z := notMem_decimal (by decide) (by decide) z
  have hcolon : (58 : UInt8) ∉ decimal z := notMem_decimal (by decide) (by decide) z
  simp only [Item.WellSeparated, List.mem_append, not_or]
  exact ⟨⟨hquote, hsep.1⟩, ⟨hcolon, hsep.2⟩⟩

/-- A byte of printed dimensions. -/
theorem printedShape_bounds {shape : List Int} {b : UInt8} (h : b ∈ printedShape shape) :
    (∃ d, b ∈ decimal d) ∨ b = 44 ∨ b = 32 := by
  induction shape with
  | nil => exact absurd h List.not_mem_nil
  | cons d rest ih =>
      cases rest with
      | nil => exact Or.inl ⟨d, h⟩
      | cons e more =>
          rw [printedShape, List.mem_append, List.mem_append] at h
          rcases h with (hd | hb) | hrest
          · exact Or.inl ⟨d, hd⟩
          · exact Or.inr (by simpa [comma, cstr, py] using hb)
          · exact ih hrest

theorem notMem_printedShape {b : UInt8} (hsign : b ≠ 45) (hdigit : isDigit b = false)
    (hsep : b ≠ 44 ∧ b ≠ 32) (shape : List Int) : b ∉ printedShape shape := by
  intro hmem
  rcases printedShape_bounds hmem with ⟨d, hd⟩ | rfl | rfl
  · exact notMem_decimal hsign hdigit d hd
  · exact hsep.1 rfl
  · exact hsep.2 rfl

/-- The printed fields of a request are separated from one another. -/
theorem Request.items_wellSeparated (q : Request) (requestId generation payloadLength : Nat) :
    ∀ i ∈ q.items requestId generation payloadLength, i.WellSeparated := by
  have hcomma : 34 ∉ comma ∧ 58 ∉ comma := by decide
  have hbrace : 34 ∉ brace ∧ 58 ∉ brace := by decide
  cases q with
  | load path digest n =>
      simp only [Request.items, List.forall_mem_cons, List.not_mem_nil, false_implies,
        implies_true, and_true]
      exact ⟨separates_comma, number_wellSeparated _ _ hcomma, separates_comma,
        number_wellSeparated _ _ hcomma, number_wellSeparated _ _ hcomma,
        number_wellSeparated _ _ hcomma, separates_comma, number_wellSeparated _ _ hbrace⟩
  | infer shape dtype =>
      have hshape : (Item.raw .shape
          (91 :: (printedShape shape ++ 93 :: (brace ++ comma)))).WellSeparated := by
        have hquote : (34 : UInt8) ∉ printedShape shape :=
          notMem_printedShape (by decide) (by decide) (by decide) shape
        have hcolon : (58 : UInt8) ∉ printedShape shape :=
          notMem_printedShape (by decide) (by decide) (by decide) shape
        simp only [Item.WellSeparated, List.mem_cons, List.mem_append, not_or]
        exact ⟨⟨by decide, hquote, by decide, hbrace.1, hcomma.1⟩,
          ⟨by decide, hcolon, by decide, hbrace.2, hcomma.2⟩⟩
      simp only [Request.items, List.forall_mem_cons, List.not_mem_nil, false_implies,
        implies_true, and_true]
      exact ⟨separates_comma, number_wellSeparated _ _ hcomma, number_wellSeparated _ _ hcomma,
        number_wellSeparated _ _ hcomma, ⟨by decide, by decide⟩, separates_comma, hshape,
        number_wellSeparated _ _ hbrace⟩
  | shutdown =>
      simp only [Request.items, List.forall_mem_cons, List.not_mem_nil, false_implies,
        implies_true, and_true]
      exact ⟨separates_comma, number_wellSeparated _ _ hcomma, number_wellSeparated _ _ hcomma,
        number_wellSeparated _ _ hcomma, number_wellSeparated _ _ hbrace⟩

/-! ## How a LOAD is read -/

/-- Message types are no keys. -/
@[simp]
theorem not_namesKey_load (k : Key) : ¬ namesKey (py "LOAD") k := by
  cases k <;> decide

theorem word_natCast {n : Nat} (h : n < 2 ^ 63) : Word n := by
  unfold Word
  omega

theorem word_protocolVersion : Word Runtime.protocolVersion := by
  decide

section Load

variable (path digest : PyStr) (n : Int) (r g len : Nat)

/-- The printed LOAD header. -/
abbrev loadText : Bytes :=
  123 :: itemsText ((Request.load path digest n).items r g len)

/-- How the worker reads a LOAD header: a path that ends in a key is taken for that key,
with the class count as its value. -/
def loadRead : Header where
  protocolVersion := toInt32 (if namesKey path .protocolVersion then n else 1)
  messageType := .load
  requestId := if namesKey path .requestId then n else r
  workerGeneration := if namesKey path .workerGeneration then n else g
  artifactPath := (readBack path).map UInt8.ofNat
  servingDigest := if namesKey path .servingDigest then [] else (readBack digest).map UInt8.ofNat
  classCount := toInt32 n
  payloadLength := if namesKey path .payloadLength then n.toNat else len

variable {path digest n r g len}

theorem load_number (k : Key) : extractInt64 (loadText path digest n r g len) k.bytes =
    (foundValue k ((Request.load path digest n).items r g len)).bind asNumber :=
  extractInt64_items k (Request.items_wellSeparated _ r g len)

theorem load_text (k : Key) : extractString (loadText path digest n r g len) k.bytes =
    ((foundValue k ((Request.load path digest n).items r g len)).map asText).getD [] :=
  extractString_items k (Request.items_wellSeparated _ r g len)

theorem load_protocolVersion (hn : Word n) :
    extractInt64 (loadText path digest n r g len) (cstr "protocol_version") =
      some (if namesKey path .protocolVersion then n else 1) := by
  refine (load_number .protocolVersion).trans ?_
  by_cases hpath : namesKey path .protocolVersion
  · simp [Request.items, hpath, asNumber_comma hn, -List.append_assoc]
  · simp [Request.items, hpath, asNumber_comma word_protocolVersion, -List.append_assoc]
    rfl

theorem load_requestId (hn : Word n) (hr : r < 2 ^ 63) :
    extractInt64 (loadText path digest n r g len) (cstr "request_id") =
      some (if namesKey path .requestId then n else r) := by
  refine (load_number .requestId).trans ?_
  by_cases hpath : namesKey path .requestId
  · simp [Request.items, hpath, asNumber_comma hn, -List.append_assoc]
  · simp [Request.items, hpath, asNumber_comma (word_natCast hr), -List.append_assoc]

theorem load_workerGeneration (hn : Word n) (hg : g < 2 ^ 63) :
    extractInt64 (loadText path digest n r g len) (cstr "worker_generation") =
      some (if namesKey path .workerGeneration then n else g) := by
  refine (load_number .workerGeneration).trans ?_
  by_cases hpath : namesKey path .workerGeneration
  · simp [Request.items, hpath, asNumber_comma hn, -List.append_assoc]
  · simp [Request.items, hpath, asNumber_brace (word_natCast hg), -List.append_assoc]

theorem load_payloadLength (hn : Word n) (hlen : len < 2 ^ 63) :
    extractInt64 (loadText path digest n r g len) (cstr "payload_length") =
      some (if namesKey path .payloadLength then n else len) := by
  refine (load_number .payloadLength).trans ?_
  by_cases hpath : namesKey path .payloadLength
  · simp [Request.items, hpath, asNumber_comma hn, -List.append_assoc]
  · simp [Request.items, hpath, asNumber_comma (word_natCast hlen), -List.append_assoc]

theorem load_classCount (hn : Word n) :
    extractInt64 (loadText path digest n r g len) (cstr "class_count") = some n := by
  refine (load_number .classCount).trans ?_
  by_cases hpath : namesKey path .classCount
  · simp [Request.items, hpath, asNumber_comma hn, -List.append_assoc]
  · simp [Request.items, hpath, asNumber_comma hn, -List.append_assoc]

theorem load_messageType :
    extractString (loadText path digest n r g len) (cstr "message_type") =
      if namesKey path .messageType then [] else cstr "LOAD" := by
  refine (load_text .messageType).trans ?_
  by_cases hpath : namesKey path .messageType
  · simp [Request.items, hpath, asText_decimal, -List.append_assoc]
  · simp [Request.items, hpath, asText_escaped, -List.append_assoc]
    rfl

theorem load_artifactPath :
    extractString (loadText path digest n r g len) (cstr "artifact_path") =
      (readBack path).map UInt8.ofNat := by
  refine (load_text .artifactPath).trans ?_
  simp [Request.items, asText_escaped, -List.append_assoc]

theorem load_servingDigest :
    extractString (loadText path digest n r g len) (cstr "serving_digest") =
      if namesKey path .servingDigest then [] else (readBack digest).map UInt8.ofNat := by
  refine (load_text .servingDigest).trans ?_
  by_cases hpath : namesKey path .servingDigest
  · simp [Request.items, hpath, asText_decimal, -List.append_assoc]
  · simp [Request.items, hpath, asText_escaped, -List.append_assoc]

/-- Keys that no LOAD has are read as empty. -/
theorem load_absent {k : Key} (hk : k = .type ∨ k = .errorCode ∨ k = .errorMessage) :
    extractString (loadText path digest n r g len) k.bytes = [] := by
  rw [load_text]
  by_cases hpath : namesKey path k
  · rcases hk with rfl | rfl | rfl <;>
      simp [Request.items, hpath, asText_decimal, -List.append_assoc]
  · by_cases hdigest : namesKey digest k
    · rcases hk with rfl | rfl | rfl <;>
        simp [Request.items, hpath, hdigest, asText_decimal, -List.append_assoc]
    · rcases hk with rfl | rfl | rfl <;> simp [Request.items, hpath, hdigest]

/-- A printed generation has no bracket. -/
theorem bracket_notMem_generation (l : Key) (g : Nat) :
    (91 : UInt8) ∉ 34 :: (l.bytes ++ 34 :: (comma ++
      itemsText [.raw .workerGeneration (decimal g ++ brace)])) := by
  have hdecimal : (91 : UInt8) ∉ decimal g := notMem_decimal (by decide) (by decide) g
  have hkey : (91 : UInt8) ∉ l.bytes := by
    cases l <;> decide
  have hword : (91 : UInt8) ∉ Key.workerGeneration.bytes := by decide
  have hcomma : (91 : UInt8) ∉ comma := by decide
  have hbrace : (91 : UInt8) ∉ brace := by decide
  simp [itemsText, Item.bytes, Item.key, Item.value, hdecimal, hkey, hword, hcomma, hbrace]

/-- Without a list and a text behind their keys there is no tensor. -/
theorem no_tensor_behind {items : List Item} (hitems : ∀ i ∈ items, i.WellSeparated)
    (hshape : (foundAt .shape items).bind (searchOne 91) = none)
    (hdtype : ((foundAt .dtype items).bind (searchOne 58)).bind (searchOne 34) = none) :
    extractShape (34 :: (Key.tensorSpec.bytes ++ 34 :: (comma ++ itemsText items))) = [] ∧
      extractDtype (34 :: (Key.tensorSpec.bytes ++ 34 :: (comma ++ itemsText items))) = [] := by
  have hfindShape := find_behind (k := .shape) (l := .tensorSpec) (by decide) separates_comma
    hitems
  have hfindDtype := find_behind (k := .dtype) (l := .tensorSpec) (by decide) separates_comma
    hitems
  constructor
  · unfold extractShape
    rw [show cstr "shape" = Key.shape.bytes from rfl, hfindShape]
    unfold findByte
    rw [hshape]
  · unfold extractDtype
    rw [show cstr "dtype" = Key.dtype.bytes from rfl, hfindDtype]
    unfold findByte
    rw [hdtype]

/-- A LOAD has no tensor, wherever the worker looks for it. -/
theorem load_tensor : extractTensor (loadText path digest n r g len) = {} := by
  have hall := (Request.load path digest n).items_wellSeparated r g len
  have hfind : find (quoted (cstr "tensor_spec")) (loadText path digest n r g len) =
      foundAt .tensorSpec ((Request.load path digest n).items r g len) :=
    find_items .tensorSpec hall
  have hbracket := searchOne_eq_none (bracket_notMem_generation .shape g)
  have hquote : searchOne 34 (58 :: 32 :: (decimal g ++ brace ++ itemsText [])) = none := by
    have hdecimal : (34 : UInt8) ∉ decimal g := notMem_decimal (by decide) (by decide) g
    refine searchOne_eq_none ?_
    simp [hdecimal, itemsText, brace, cstr, py]
  unfold extractTensor
  rw [hfind]
  by_cases hpath : namesKey path .tensorSpec
  · -- the fields behind the path are searched
    have hrest : ∀ i ∈ ((Request.load path digest n).items r g len).tail, i.WellSeparated :=
      fun i hi => hall i (List.mem_of_mem_tail hi)
    have hshape : (foundAt .shape ((Request.load path digest n).items r g len).tail).bind
        (searchOne 91) = none := by
      by_cases hdigest : namesKey digest .shape
      · simp [Request.items, hdigest, hbracket]
      · simp [Request.items, hdigest]
    have hdtype : ((foundAt .dtype ((Request.load path digest n).items r g len).tail).bind
        (searchOne 58)).bind (searchOne 34) = none := by
      rw [searchOne_foundAt .dtype hrest]
      by_cases hdigest : namesKey digest .dtype
      · simp [Request.items, hdigest, hquote, -List.append_assoc]
      · simp [Request.items, hdigest]
    obtain ⟨hnoShape, hnoDtype⟩ := no_tensor_behind hrest hshape hdtype
    have hfound : foundAt .tensorSpec ((Request.load path digest n).items r g len) =
        some (34 :: (Key.tensorSpec.bytes ++ 34 :: (comma ++
          itemsText ((Request.load path digest n).items r g len).tail))) := by
      simp [Request.items, hpath]
    rw [hfound]
    dsimp only
    rw [hnoShape, hnoDtype]
  · by_cases hdigest : namesKey digest .tensorSpec
    · -- only the generation stands behind the digest
      have hrest : ∀ i ∈ [Item.raw .workerGeneration (decimal g ++ brace)], i.WellSeparated :=
        fun i hi => hall i (by simp_all [Request.items])
      obtain ⟨hnoShape, hnoDtype⟩ := no_tensor_behind hrest (by simp) (by simp)
      have hfound : foundAt .tensorSpec ((Request.load path digest n).items r g len) =
          some (34 :: (Key.tensorSpec.bytes ++ 34 :: (comma ++
            itemsText [Item.raw .workerGeneration (decimal g ++ brace)]))) := by
        simp [Request.items, hpath, hdigest]
      rw [hfound]
      dsimp only
      rw [hnoShape, hnoDtype]
    · simp [Request.items, hpath, hdigest]

/-- The message type of a LOAD header. -/
theorem load_type : extractType (loadText path digest n r g len) =
    if namesKey path .messageType then [] else cstr "LOAD" := by
  have htype : extractString (loadText path digest n r g len) (cstr "type") = [] :=
    load_absent (k := .type) (by simp)
  rw [extractType, load_messageType]
  by_cases hpath : namesKey path .messageType
  · simp only [if_pos hpath, htype, ite_self]
  · simp only [if_neg hpath]
    rfl

/-- **A LOAD header as the worker reads it.** -/
theorem jsonToHeader_load (hn : Word n) (hr : r < 2 ^ 63) (hg : g < 2 ^ 63) (hlen : len < 2 ^ 63)
    (hbound : (loadText path digest n r g len).length ≤ maxHeaderBytes)
    (hpath : ¬ namesKey path .messageType) :
    jsonToHeader (loadText path digest n r g len) = (loadRead path digest n r g len, none) := by
  have herrorCode : extractString (loadText path digest n r g len) (cstr "error_code") = [] :=
    load_absent (k := .errorCode) (by simp)
  have herrorMessage :
      extractString (loadText path digest n r g len) (cstr "error_message") = [] :=
    load_absent (k := .errorMessage) (by simp)
  have hkind : extractType (loadText path digest n r g len) = cstr "LOAD" := by
    rw [load_type, if_neg hpath]
  have hlength : (extractUint64 (loadText path digest n r g len) (cstr "payload_length")).getD 0 =
      if namesKey path .payloadLength then n.toNat else len := by
    rw [extractUint64, load_payloadLength hn hlen]
    dsimp only
    split <;> split <;> simp <;> omega
  have hkindKnown : parseMessageType (extractType (loadText path digest n r g len)) ≠ .unknown := by
    rw [hkind]
    decide
  rw [jsonToHeader_known hbound (load_protocolVersion hn) hkindKnown, hkind,
    load_requestId hn hr, load_workerGeneration hn hg, load_artifactPath, load_servingDigest,
    herrorCode, herrorMessage, hlength, load_classCount hn, load_tensor]
  rfl

end Load

/-! ## How an INFER is read -/

/-- A token between two commas. -/
theorem splitCommas_append {token : Bytes} (h : 44 ∉ token) (rest : Bytes) :
    splitCommas (token ++ 44 :: rest) = token :: splitCommas rest := by
  induction token with
  | nil => simp [splitCommas]
  | cons c cs ih =>
      rw [List.mem_cons, not_or] at h
      rw [List.cons_append, splitCommas, if_neg (Ne.symm h.1), ih h.2]

/-- The last token. -/
theorem splitCommas_eq {token : Bytes} (h : 44 ∉ token) : splitCommas token = [token] := by
  induction token with
  | nil => rfl
  | cons c cs ih =>
      rw [List.mem_cons, not_or] at h
      rw [splitCommas, if_neg (Ne.symm h.1), ih h.2]

/-- A dimension as the worker reads its token. -/
def readDim (token : Bytes) : Option Int :=
  if (trim token).isEmpty then none else stoi (trim token)

/-- A printed dimension is read as it was, with a space before it or without. -/
theorem readDim_decimal {d : Int} (hd : -2 ^ 31 ≤ d ∧ d < 2 ^ 31) {pad : Bytes}
    (hpad : pad = [] ∨ pad = [32]) : readDim (pad ++ decimal d) = some d := by
  have htrim : trim (pad ++ decimal d) = decimal d := by
    have hplain := trim_eq_self (decimal_ne_nil d) (decimal_not_isSpace d)
    rcases hpad with rfl | rfl
    · exact hplain
    · have hspace : trim (32 :: decimal d) = trim (decimal d) := by
        unfold trim
        rw [List.dropWhile_cons_of_pos (by decide)]
      exact hspace.trans hplain
  have hempty : (decimal d).isEmpty = false := by simp [decimal_ne_nil]
  rw [readDim, htrim, hempty, stoi, strtoll_decimal, Option.filter_some]
  simpa using hd

/-- **Printed dimensions are read as they were.** -/
theorem readDims_printedShape {shape : List Int} (h : ∀ d ∈ shape, -2 ^ 31 ≤ d ∧ d < 2 ^ 31)
    {pad : Bytes} (hpad : pad = [] ∨ pad = [32]) :
    (splitCommas (pad ++ printedShape shape)).filterMap readDim = shape := by
  induction shape generalizing pad with
  | nil => rcases hpad with rfl | rfl <;> rfl
  | cons d rest ih =>
      have hd := readDim_decimal (h d List.mem_cons_self) hpad
      have hcomma : (44 : UInt8) ∉ pad ++ decimal d := by
        have hdecimal : (44 : UInt8) ∉ decimal d := notMem_decimal (by decide) (by decide) d
        rcases hpad with rfl | rfl <;> simp [hdecimal]
      cases rest with
      | nil =>
          rw [printedShape, splitCommas_eq hcomma]
          simp [hd]
      | cons e more =>
          have hsplit : pad ++ printedShape (d :: e :: more) =
              (pad ++ decimal d) ++ 44 :: ([32] ++ printedShape (e :: more)) := by
            simp [printedShape, comma, cstr, py]
          rw [hsplit, splitCommas_append hcomma, List.filterMap_cons, hd]
          dsimp only
          rw [ih (fun z hz => h z (List.mem_cons_of_mem d hz)) (Or.inr rfl)]

/-- A text is taken up to the quote that closes it, or to one in it. -/
theorem takeWhile_closed (s rest : Bytes) :
    (s ++ 34 :: rest).takeWhile (fun c => c != 34) = s.takeWhile fun c => c != 34 := by
  induction s with
  | nil => rfl
  | cons c cs ih =>
      rw [List.cons_append, List.takeWhile_cons, List.takeWhile_cons, ih]

/-- A natural number is read as an unsigned one. -/
theorem extractUint64_natCast {js key : Bytes} {n : Nat}
    (h : extractInt64 js key = some (n : Int)) :
    extractUint64 js key = some n := by
  have hpos : ¬ (n : Int) < 0 := by omega
  simp [extractUint64, h, hpos]

/-- Message types are no keys. -/
@[simp]
theorem not_namesKey_infer (k : Key) : ¬ namesKey (py "INFER") k := by
  cases k <;> decide

section Infer

variable (shape : List Int) (dtype : PyStr) (r g len : Nat)

/-- The printed INFER header. -/
abbrev inferText : Bytes :=
  123 :: itemsText ((Request.infer shape dtype).items r g len)

/-- How the worker reads an INFER header: a type that ends in the key of the generation is
taken for it, and the list behind it is no number. -/
def inferRead : Header where
  messageType := .infer
  requestId := r
  workerGeneration := if namesKey dtype .workerGeneration then 0 else g
  tensorSpec := { shape, dtype := (escaped dtype).takeWhile fun c => c != 34 }
  payloadLength := len

variable {shape dtype r g len}

theorem infer_number (k : Key) : extractInt64 (inferText shape dtype r g len) k.bytes =
    (foundValue k ((Request.infer shape dtype).items r g len)).bind asNumber :=
  extractInt64_items k (Request.items_wellSeparated _ r g len)

theorem infer_text (k : Key) : extractString (inferText shape dtype r g len) k.bytes =
    ((foundValue k ((Request.infer shape dtype).items r g len)).map asText).getD [] :=
  extractString_items k (Request.items_wellSeparated _ r g len)

theorem infer_protocolVersion :
    extractInt64 (inferText shape dtype r g len) (cstr "protocol_version") = some 1 := by
  refine (infer_number .protocolVersion).trans ?_
  simp [Request.items, asNumber_comma word_protocolVersion, -List.append_assoc]
  rfl

theorem infer_requestId (hr : r < 2 ^ 63) :
    extractInt64 (inferText shape dtype r g len) (cstr "request_id") = some (r : Int) := by
  refine (infer_number .requestId).trans ?_
  simp [Request.items, asNumber_comma (word_natCast hr), -List.append_assoc]

theorem infer_payloadLength (hlen : len < 2 ^ 63) :
    extractInt64 (inferText shape dtype r g len) (cstr "payload_length") = some (len : Int) := by
  refine (infer_number .payloadLength).trans ?_
  simp [Request.items, asNumber_comma (word_natCast hlen), -List.append_assoc]

theorem infer_workerGeneration (hg : g < 2 ^ 63) :
    (extractInt64 (inferText shape dtype r g len) (cstr "worker_generation")).getD 0 =
      if namesKey dtype .workerGeneration then 0 else (g : Int) := by
  refine (congrArg (fun z => z.getD 0) (infer_number .workerGeneration)).trans ?_
  by_cases hdtype : namesKey dtype .workerGeneration
  · simp [Request.items, hdtype, asNumber_bracket]
  · simp [Request.items, hdtype, asNumber_brace (word_natCast hg), -List.append_assoc]

/-- An INFER has no class count. -/
theorem infer_classCount :
    extractInt64 (inferText shape dtype r g len) (cstr "class_count") = none := by
  refine (infer_number .classCount).trans ?_
  by_cases hdtype : namesKey dtype .classCount
  · simp [Request.items, hdtype, asNumber_bracket]
  · simp [Request.items, hdtype]

theorem infer_type : extractType (inferText shape dtype r g len) = cstr "INFER" := by
  have htype : extractString (inferText shape dtype r g len) (cstr "message_type") =
      cstr "INFER" := by
    refine (infer_text .messageType).trans ?_
    simp [Request.items, asText_escaped, -List.append_assoc]
    rfl
  rw [extractType, htype]
  rfl

/-- Keys that no INFER has are read as empty. -/
theorem infer_absent {k : Key} (hk : k = .artifactPath ∨ k = .servingDigest ∨
    k = .errorCode ∨ k = .errorMessage) :
    extractString (inferText shape dtype r g len) k.bytes = [] := by
  rw [infer_text]
  by_cases hdtype : namesKey dtype k
  · rcases hk with rfl | rfl | rfl | rfl <;> simp [Request.items, hdtype, asText_bracket]
  · rcases hk with rfl | rfl | rfl | rfl <;> simp [Request.items, hdtype]

/-- The printed fields behind the type. -/
def behindType (shape : List Int) (g : Nat) : List Item :=
  [.raw .shape (91 :: (printedShape shape ++ 93 :: (brace ++ comma))),
    .raw .workerGeneration (decimal g ++ brace)]

/-- The fields from the tensor on. -/
def tensorItems (shape : List Int) (dtype : PyStr) (g : Nat) : List Item :=
  .raw .tensorSpec (cstr "\x7b") :: .text .dtype dtype comma :: behindType shape g

/-- The text from the opening bracket on. -/
theorem searchOne_bracket :
    searchOne 91 (itemsText (behindType shape g)) =
      some (91 :: (printedShape shape ++ 93 :: (brace ++ (comma ++
        itemsText [.raw .workerGeneration (decimal g ++ brace)])))) := by
  have hprefix : (91 : UInt8) ∉ 34 :: (Key.shape.bytes ++ [34, 58, 32]) := by decide
  have hsplit : itemsText (behindType shape g) = (34 :: (Key.shape.bytes ++ [34, 58, 32])) ++
      91 :: (printedShape shape ++ 93 :: (brace ++ (comma ++
        itemsText [.raw .workerGeneration (decimal g ++ brace)]))) := by
    simp [itemsText, behindType, Item.bytes, Item.key, Item.value]
  rw [hsplit, searchOne_append hprefix, searchOne_cons_self]

/-- **The dimensions are read** whatever the type is. -/
theorem extractShape_tensor (hall : ∀ i ∈ tensorItems shape dtype g, i.WellSeparated)
    (hshape : ∀ d ∈ shape, -2 ^ 31 ≤ d ∧ d < 2 ^ 31) :
    extractShape (itemsText (tensorItems shape dtype g)) = shape := by
  have hfind : find (quoted (cstr "shape")) (itemsText (tensorItems shape dtype g)) =
      foundAt .shape (tensorItems shape dtype g) :=
    search_items .shape hall
  have hopen : (foundAt .shape (tensorItems shape dtype g)).bind (findByte 91) =
      some (91 :: (printedShape shape ++ 93 :: (brace ++ (comma ++
        itemsText [.raw .workerGeneration (decimal g ++ brace)])))) := by
    by_cases hdtype : namesKey dtype .shape
    · have hprefix : (91 : UInt8) ∉ 34 :: (Key.shape.bytes ++ 34 :: comma) := by decide
      have hsplit : 34 :: (Key.shape.bytes ++ 34 :: (comma ++ itemsText (behindType shape g))) =
          34 :: (Key.shape.bytes ++ 34 :: comma) ++ itemsText (behindType shape g) := by
        simp
      have hfound : foundAt .shape (tensorItems shape dtype g) =
          some (34 :: (Key.shape.bytes ++ 34 :: (comma ++ itemsText (behindType shape g)))) := by
        simp [tensorItems, hdtype]
      rw [hfound, hsplit, Option.bind_some]
      unfold findByte
      rw [searchOne_append hprefix, searchOne_bracket]
    · have hfound : foundAt .shape (tensorItems shape dtype g) =
          some (itemsText (behindType shape g)) := by
        simp [tensorItems, behindType, hdtype]
      rw [hfound]
      exact searchOne_bracket
  have hclose : ∀ b ∈ printedShape shape, (b != 93) = true := by
    intro b hb
    have hmem : (93 : UInt8) ∉ printedShape shape :=
      notMem_printedShape (by decide) (by decide) (by decide) shape
    simp only [bne_iff_ne]
    rintro rfl
    exact hmem hb
  unfold extractShape
  rw [hfind, hopen]
  dsimp only
  rw [List.drop_one, List.tail_cons, if_pos (by simp), List.takeWhile_append_of_pos hclose,
    List.takeWhile_cons_of_neg (by decide), List.append_nil]
  exact readDims_printedShape hshape (Or.inl rfl)

/-- **The type is read** up to the first quote. -/
theorem extractDtype_tensor (hall : ∀ i ∈ tensorItems shape dtype g, i.WellSeparated) :
    extractDtype (itemsText (tensorItems shape dtype g)) =
      (escaped dtype).takeWhile fun c => c != 34 := by
  have hfind : find (quoted (cstr "dtype")) (itemsText (tensorItems shape dtype g)) =
      foundAt .dtype (tensorItems shape dtype g) :=
    search_items .dtype hall
  have hcolon : (foundAt .dtype (tensorItems shape dtype g)).bind (findByte 58) =
      some (58 :: 32 :: (34 :: (escaped dtype ++ 34 :: (comma ++
        itemsText (behindType shape g))))) := by
    refine (searchOne_foundAt .dtype hall).trans ?_
    simp [tensorItems]
  have hopen : searchOne 34 (58 :: 32 :: (34 :: (escaped dtype ++ 34 :: (comma ++
        itemsText (behindType shape g))))) =
      some (34 :: (escaped dtype ++ 34 :: (comma ++ itemsText (behindType shape g)))) := by
    have hprefix : (34 : UInt8) ∉ [(58 : UInt8), 32] := by decide
    exact (searchOne_append hprefix).trans (searchOne_cons_self _ _)
  unfold extractDtype
  rw [hfind, hcolon, Option.bind_some]
  unfold findByte
  rw [hopen]
  dsimp only
  rw [List.drop_one, List.tail_cons, if_pos (by simp)]
  exact takeWhile_closed _ _

theorem infer_tensor (hshape : ∀ d ∈ shape, -2 ^ 31 ≤ d ∧ d < 2 ^ 31) :
    extractTensor (inferText shape dtype r g len) =
      { shape, dtype := (escaped dtype).takeWhile fun c => c != 34 } := by
  have hall := (Request.infer shape dtype).items_wellSeparated r g len
  have hrest : ∀ i ∈ tensorItems shape dtype g, i.WellSeparated := by
    intro i hi
    refine hall i ?_
    simp only [Request.items, tensorItems, behindType, List.mem_cons] at hi ⊢
    tauto
  have hfind : find (quoted (cstr "tensor_spec")) (inferText shape dtype r g len) =
      some (itemsText (tensorItems shape dtype g)) := by
    refine (find_items .tensorSpec hall).trans ?_
    simp [Request.items, tensorItems, behindType]
  unfold extractTensor
  rw [hfind]
  dsimp only
  rw [extractShape_tensor hrest hshape, extractDtype_tensor hrest]

/-- **An INFER header as the worker reads it.** -/
theorem jsonToHeader_infer (hshape : ∀ d ∈ shape, -2 ^ 31 ≤ d ∧ d < 2 ^ 31)
    (hr : r < 2 ^ 63) (hg : g < 2 ^ 63) (hlen : len < 2 ^ 63)
    (hbound : (inferText shape dtype r g len).length ≤ maxHeaderBytes) :
    jsonToHeader (inferText shape dtype r g len) = (inferRead shape dtype r g len, none) := by
  have hpath : extractString (inferText shape dtype r g len) (cstr "artifact_path") = [] :=
    infer_absent (k := .artifactPath) (by simp)
  have hdigest : extractString (inferText shape dtype r g len) (cstr "serving_digest") = [] :=
    infer_absent (k := .servingDigest) (by simp)
  have herrorCode : extractString (inferText shape dtype r g len) (cstr "error_code") = [] :=
    infer_absent (k := .errorCode) (by simp)
  have herrorMessage :
      extractString (inferText shape dtype r g len) (cstr "error_message") = [] :=
    infer_absent (k := .errorMessage) (by simp)
  have hlength : (extractUint64 (inferText shape dtype r g len) (cstr "payload_length")).getD 0 =
      len := by
    rw [extractUint64_natCast (infer_payloadLength hlen), Option.getD_some]
  have hkindKnown :
      parseMessageType (extractType (inferText shape dtype r g len)) ≠ .unknown := by
    rw [infer_type]
    decide
  rw [jsonToHeader_known hbound infer_protocolVersion hkindKnown, infer_type,
    infer_requestId hr, infer_workerGeneration hg, hpath, hdigest, herrorCode, herrorMessage,
    hlength, infer_classCount, infer_tensor hshape]
  rfl

end Infer

/-! ## How a SHUTDOWN is read -/

/-- Message types are no keys. -/
@[simp]
theorem not_namesKey_shutdown (k : Key) : ¬ namesKey (py "SHUTDOWN") k := by
  cases k <;> decide

section Shutdown

variable (r g len : Nat)

/-- The printed SHUTDOWN header. -/
abbrev shutdownText : Bytes :=
  123 :: itemsText (Request.shutdown.items r g len)

variable {r g len}

theorem shutdown_number (k : Key) : extractInt64 (shutdownText r g len) k.bytes =
    (foundValue k (Request.shutdown.items r g len)).bind asNumber :=
  extractInt64_items k (Request.items_wellSeparated _ r g len)

theorem shutdown_text (k : Key) : extractString (shutdownText r g len) k.bytes =
    ((foundValue k (Request.shutdown.items r g len)).map asText).getD [] :=
  extractString_items k (Request.items_wellSeparated _ r g len)

/-- Keys that no SHUTDOWN has are read as empty. -/
theorem shutdown_absent {k : Key} (hk : k = .artifactPath ∨ k = .servingDigest ∨
    k = .errorCode ∨ k = .errorMessage) :
    extractString (shutdownText r g len) k.bytes = [] := by
  rw [shutdown_text]
  rcases hk with rfl | rfl | rfl | rfl <;> simp [Request.items]

theorem shutdown_type : extractType (shutdownText r g len) = cstr "SHUTDOWN" := by
  have htype : extractString (shutdownText r g len) (cstr "message_type") =
      cstr "SHUTDOWN" := by
    refine (shutdown_text .messageType).trans ?_
    simp [Request.items, asText_escaped, -List.append_assoc]
    rfl
  rw [extractType, htype]
  rfl

/-- **A SHUTDOWN header as the worker reads it.** -/
theorem jsonToHeader_shutdown (hr : r < 2 ^ 63) (hg : g < 2 ^ 63) (hlen : len < 2 ^ 63)
    (hbound : (shutdownText r g len).length ≤ maxHeaderBytes) :
    jsonToHeader (shutdownText r g len) =
      ({ messageType := .shutdown, requestId := r, workerGeneration := g,
         payloadLength := len }, none) := by
  have hversion : extractInt64 (shutdownText r g len) (cstr "protocol_version") = some 1 := by
    refine (shutdown_number .protocolVersion).trans ?_
    simp [Request.items, asNumber_comma word_protocolVersion, -List.append_assoc]
    rfl
  have hrequest : extractInt64 (shutdownText r g len) (cstr "request_id") = some (r : Int) := by
    refine (shutdown_number .requestId).trans ?_
    simp [Request.items, asNumber_comma (word_natCast hr), -List.append_assoc]
  have hgeneration :
      extractInt64 (shutdownText r g len) (cstr "worker_generation") = some (g : Int) := by
    refine (shutdown_number .workerGeneration).trans ?_
    simp [Request.items, asNumber_brace (word_natCast hg), -List.append_assoc]
  have hpayload :
      extractInt64 (shutdownText r g len) (cstr "payload_length") = some (len : Int) := by
    refine (shutdown_number .payloadLength).trans ?_
    simp [Request.items, asNumber_comma (word_natCast hlen), -List.append_assoc]
  have hclasses : extractInt64 (shutdownText r g len) (cstr "class_count") = none := by
    refine (shutdown_number .classCount).trans ?_
    simp [Request.items]
  have hlength : (extractUint64 (shutdownText r g len) (cstr "payload_length")).getD 0 = len := by
    rw [extractUint64_natCast hpayload, Option.getD_some]
  have htensor : extractTensor (shutdownText r g len) = {} := by
    have hfind : find (quoted (cstr "tensor_spec")) (shutdownText r g len) = none := by
      refine (find_items .tensorSpec (Request.items_wellSeparated _ r g len)).trans ?_
      simp [Request.items]
    rw [extractTensor, hfind]
  have hpath : extractString (shutdownText r g len) (cstr "artifact_path") = [] :=
    shutdown_absent (k := .artifactPath) (by simp)
  have hdigest : extractString (shutdownText r g len) (cstr "serving_digest") = [] :=
    shutdown_absent (k := .servingDigest) (by simp)
  have herrorCode : extractString (shutdownText r g len) (cstr "error_code") = [] :=
    shutdown_absent (k := .errorCode) (by simp)
  have herrorMessage : extractString (shutdownText r g len) (cstr "error_message") = [] :=
    shutdown_absent (k := .errorMessage) (by simp)
  have hkindKnown : parseMessageType (extractType (shutdownText r g len)) ≠ .unknown := by
    rw [shutdown_type]
    decide
  rw [jsonToHeader_known hbound hversion hkindKnown, shutdown_type, hrequest, hgeneration, hpath,
    hdigest, herrorCode, herrorMessage, hlength, hclasses, htensor]
  rfl

end Shutdown

end Native
end FrigateXdna
