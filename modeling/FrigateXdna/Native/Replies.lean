import FrigateXdna.Native.Extract
import FrigateXdna.Python.Scan

/-!
# Reply headers as text

The worker prints a header with {lit}`header_to_json`, byte by byte; the supervisor decodes
it as UTF-8.

Main results:

- Theorem {lit}`headerToJson_eq`: the printed fields of a header.
- Theorem {lit}`utf8Decode_headerToJson`: the printed header is text exactly when its texts
  are.
-/

namespace FrigateXdna
namespace Native

open Python

/-! ## Printed fields -/

/-- The value of a printed field, with texts as bytes or decoded. -/
inductive Value (τ : Type)
  | number (z : Int)
  | text (s : τ)
  | tensor (shape : List Int) (dtype : τ)

/-- A value as {lit}`header_to_json` prints it. -/
def Value.bytes : Value Bytes → Bytes
  | .number z => decimal z
  | .text s => 34 :: (jsonEscape s ++ [34])
  | .tensor shape dtype =>
      cstr "\x7b\"shape\":[" ++ (shapeText shape ++ (cstr "],\"dtype\":\"" ++
        (jsonEscape dtype ++ cstr "\"\x7d")))

/-- A field as {lit}`header_to_json` prints it. -/
def fieldBytes (f : Key × Value Bytes) : Bytes :=
  34 :: (f.1.bytes ++ (34 :: 58 :: f.2.bytes))

/-- Fields behind a comma each. -/
def moreBytes (fields : List (Key × Value Bytes)) : Bytes :=
  fields.flatMap fun f => 44 :: fieldBytes f

/-- A text field, unless it is empty. -/
def optionalText (k : Key) (s : Bytes) : List (Key × Value Bytes) :=
  if s.isEmpty then [] else [(k, .text s)]

/-- The tensor, unless it is empty. -/
def optionalTensor (spec : TensorSpec) : List (Key × Value Bytes) :=
  if spec.shape.isEmpty && spec.dtype.isEmpty then []
  else [(.tensorSpec, .tensor spec.shape spec.dtype)]

/-- The fields behind the protocol version. -/
def Header.moreFields (h : Header) : List (Key × Value Bytes) :=
  [(.messageType, .text (cstr h.messageType.text)), (.requestId, .number h.requestId),
    (.workerGeneration, .number h.workerGeneration)] ++
    (optionalText .artifactPath h.artifactPath ++
      (optionalText .servingDigest h.servingDigest ++
        (optionalTensor h.tensorSpec ++
          ([(.payloadLength, .number h.payloadLength), (.classCount, .number h.classCount)] ++
            (optionalText .errorCode h.errorCode ++
              optionalText .errorMessage h.errorMessage)))))

theorem textField_eq (k : Key) (s : Bytes) :
    textField k.text s = moreBytes (optionalText k s) := by
  unfold textField optionalText
  by_cases h : s.isEmpty
  · rw [if_pos h, if_pos h]
    rfl
  · rw [if_neg h, if_neg h]
    simp only [moreBytes, List.flatMap_cons, List.flatMap_nil, List.append_nil, fieldBytes,
      Value.bytes, List.append_assoc]
    rfl

theorem tensorField_eq (spec : TensorSpec) :
    tensorField spec = moreBytes (optionalTensor spec) := by
  unfold tensorField optionalTensor
  by_cases h : (spec.shape.isEmpty && spec.dtype.isEmpty) = true
  · rw [if_pos h, if_pos h]
    rfl
  · rw [if_neg h, if_neg h]
    simp only [moreBytes, List.flatMap_cons, List.flatMap_nil, List.append_nil, fieldBytes,
      Value.bytes, List.append_assoc]
    rfl

/-- Message types are printed as they are. -/
theorem jsonEscape_type (t : MessageType) : jsonEscape (cstr t.text) = cstr t.text := by
  cases t <;> decide

/-- **A printed header** is its fields between braces. -/
theorem headerToJson_eq (h : Header) :
    headerToJson h = 123 :: (fieldBytes (.protocolVersion, .number h.protocolVersion) ++
      (moreBytes h.moreFields ++ [125])) := by
  have happend : ∀ fs gs, moreBytes (fs ++ gs) = moreBytes fs ++ moreBytes gs :=
    fun fs gs => List.flatMap_append
  have hpath : textField "artifact_path" h.artifactPath =
      moreBytes (optionalText .artifactPath h.artifactPath) := textField_eq .artifactPath _
  have hdigest : textField "serving_digest" h.servingDigest =
      moreBytes (optionalText .servingDigest h.servingDigest) := textField_eq .servingDigest _
  have hcode : textField "error_code" h.errorCode =
      moreBytes (optionalText .errorCode h.errorCode) := textField_eq .errorCode _
  have hmessage : textField "error_message" h.errorMessage =
      moreBytes (optionalText .errorMessage h.errorMessage) := textField_eq .errorMessage _
  rw [headerToJson, hpath, hdigest, hcode, hmessage, tensorField_eq, Header.moreFields]
  simp only [happend]
  generalize moreBytes (optionalText .artifactPath h.artifactPath) = path
  generalize moreBytes (optionalText .servingDigest h.servingDigest) = digest
  generalize moreBytes (optionalText .errorCode h.errorCode) = code
  generalize moreBytes (optionalText .errorMessage h.errorMessage) = message
  generalize moreBytes (optionalTensor h.tensorSpec) = tensor
  simp only [moreBytes, List.flatMap_cons, List.flatMap_nil, List.append_nil, fieldBytes,
    Value.bytes, jsonEscape_type, List.append_assoc, List.cons_append]
  rfl

/-! ## Decoding -/

/-- One code point as {lit}`json_escape` prints it. -/
def escapePoint (c : Nat) : PyStr :=
  if c < 0x80 then (escapeByte (UInt8.ofNat c)).map UInt8.toNat else [c]

/-- A text as {lit}`json_escape` prints it. -/
def escapedText (s : PyStr) : PyStr :=
  s.flatMap escapePoint

/-- An ASCII byte is printed in ASCII. -/
theorem escapeByte_ascii {b : UInt8} (hb : b.toNat < 0x80) :
    (∀ d ∈ escapeByte b, d.toNat < 0x80) ∧
      (escapeByte b).map UInt8.toNat = escapePoint b.toNat := by
  have hall : ∀ n < 0x80, ∀ d ∈ escapeByte (UInt8.ofNat n), d.toNat < 0x80 := by
    decide +kernel
  have hround : UInt8.ofNat b.toNat = b := UInt8.ofNat_toNat
  refine ⟨?_, ?_⟩
  · have := hall b.toNat hb
    rwa [hround] at this
  · rw [escapePoint, if_pos hb, hround]

/-- Other bytes are printed as they are. -/
theorem escapeByte_of_ge {b : UInt8} (hb : ¬ b.toNat < 0x80) : escapeByte b = [b] := by
  have hctrl : ¬ b < 0x20 := by
    rw [UInt8.lt_iff_toNat_lt]
    have h32 : (0x20 : UInt8).toNat = 32 := rfl
    omega
  have hne : ∀ c : UInt8, c.toNat < 0x80 → b ≠ c := by
    rintro c hc rfl
    exact hb hc
  rw [escapeByte, if_neg (by rw [not_or]; exact ⟨hne 34 (by decide), hne 92 (by decide)⟩),
    if_neg (hne 10 (by decide)), if_neg (hne 13 (by decide)), if_neg (hne 8 (by decide)),
    if_neg (hne 12 (by decide)), if_neg (hne 9 (by decide)), if_neg hctrl]

/-- **Escaping commutes with decoding.** -/
theorem utf8Go_jsonEscape (s : Bytes) {need cp lo hi : Nat} (hlo : need = 0 ∨ 0x80 ≤ lo)
    (hdone : Completes need cp lo hi) :
    utf8Go (jsonEscape s) need cp lo hi = (utf8Go s need cp lo hi).map escapedText := by
  induction s generalizing need cp lo hi with
  | nil => cases need <;> rfl
  | cons b bs ih =>
      have hcons : jsonEscape (b :: bs) = escapeByte b ++ jsonEscape bs := rfl
      rw [hcons]
      by_cases hb : b.toNat < 0x80
      · obtain ⟨hascii, hpoint⟩ := escapeByte_ascii hb
        cases need with
        | zero =>
            have hfront := utf8Decode_ascii_append hascii (jsonEscape bs)
            have hrest : utf8Decode (jsonEscape bs) = (utf8Decode bs).map escapedText :=
              ih (Or.inl rfl) completes_zero
            have hhead : utf8Go (b :: bs) 0 cp lo hi = (utf8Decode bs).map (b.toNat :: ·) := by
              rw [utf8Go, if_pos hb]
              rfl
            have hany : utf8Go (escapeByte b ++ jsonEscape bs) 0 cp lo hi =
                utf8Decode (escapeByte b ++ jsonEscape bs) := by
              cases escapeByte b ++ jsonEscape bs <;> rfl
            rw [hany, hfront, hrest, hhead, hpoint, Option.map_map, Option.map_map]
            rfl
        | succ need =>
            have hout : ∀ d : UInt8, d.toNat < 0x80 → ∀ more : Bytes,
                utf8Go (d :: more) (need + 1) cp lo hi = none := by
              intro d hd more
              rw [utf8Go, if_neg (by omega)]
            have hne : escapeByte b ≠ [] := by
              intro h
              have hnil : ∀ n < 0x80, escapeByte (UInt8.ofNat n) ≠ [] := by
                decide +kernel
              have hround : UInt8.ofNat b.toNat = b := UInt8.ofNat_toNat
              exact hnil b.toNat hb (by rw [hround]; exact h)
            rw [hout b hb]
            cases hbytes : escapeByte b with
            | nil => exact absurd hbytes hne
            | cons d ds =>
                rw [List.cons_append, hout d (hascii d (hbytes ▸ List.mem_cons_self))]
                rfl
      · rw [escapeByte_of_ge hb, List.cons_append, List.nil_append]
        have hkeep : ∀ c, 0x80 ≤ c → ∀ text, escapedText (c :: text) = c :: escapedText text := by
          intro c hc text
          have hpoint : escapePoint c = [c] := if_neg (Nat.not_lt.mpr hc)
          rw [escapedText, List.flatMap_cons, hpoint]
          rfl
        cases need with
        | zero =>
            rw [utf8Go, utf8Go, if_neg hb, if_neg hb]
            cases hlead : utf8Lead b.toNat with
            | none => rfl
            | some lead =>
                obtain ⟨need, cp', lo', hi'⟩ := lead
                exact ih (Or.inr (utf8Lead_lo hlead)) (utf8Lead_completes hlead)
        | succ need =>
            rw [utf8Go, utf8Go]
            by_cases hin : lo ≤ b.toNat ∧ b.toNat ≤ hi
            · rw [if_pos hin, if_pos hin]
              cases need with
              | zero =>
                  simp only [Completes] at hdone
                  have hwide := (hdone b.toNat hin.1 hin.2).1
                  dsimp only
                  generalize cp * 64 + (b.toNat - 0x80) = point at hwide ⊢
                  rw [if_pos rfl, if_pos rfl, ih (Or.inl rfl) completes_zero, Option.map_map,
                    Option.map_map]
                  exact congrArg (fun f => (utf8Decode bs).map f)
                    (funext fun text => (hkeep point hwide text).symm)
              | succ need =>
                  exact ih (Or.inr (by decide)) (hdone b.toNat hin.1 hin.2)
            · rw [if_neg hin, if_neg hin]
              rfl

theorem utf8Decode_jsonEscape (s : Bytes) :
    utf8Decode (jsonEscape s) = (utf8Decode s).map escapedText :=
  utf8Go_jsonEscape s (Or.inl rfl) completes_zero

/-- A decoded value as it stands in the text. -/
def Value.print : Value PyStr → PyStr
  | .number z => intRepr z
  | .text s => 34 :: (escapedText s ++ [34])
  | .tensor shape dtype =>
      py "\x7b\"shape\":[" ++ ((shapeText shape).map UInt8.toNat ++ (py "],\"dtype\":\"" ++
        (escapedText dtype ++ py "\"\x7d")))

/-- The texts of a value, decoded. -/
def Value.decode : Value Bytes → Option (Value PyStr)
  | .number z => some (.number z)
  | .text s => (utf8Decode s).map .text
  | .tensor shape dtype => (utf8Decode dtype).map (.tensor shape)

/-- A decoded field. -/
def fieldPrint (f : Key × Value PyStr) : PyStr :=
  34 :: (py f.1.text ++ (34 :: 58 :: f.2.print))

/-- Decoded fields behind a comma each. -/
def morePrint (fields : List (Key × Value PyStr)) : PyStr :=
  fields.flatMap fun f => 44 :: fieldPrint f

/-- The fields, decoded; {lean}`none` when one of the texts is no UTF-8. -/
def decodeFields : List (Key × Value Bytes) → Option (List (Key × Value PyStr))
  | [] => some []
  | (k, v) :: rest => v.decode.bind fun v => (decodeFields rest).map ((k, v) :: ·)

/-- Integers are printed in ASCII. -/
theorem decimal_ascii (z : Int) :
    (∀ b ∈ decimal z, b.toNat < 0x80) ∧ (decimal z).map UInt8.toNat = intRepr z := by
  have hlt : ∀ c ∈ intRepr z, c < 0x80 := by
    intro c hc
    rcases intRepr_bounds hc with rfl | hbounds
    · decide
    · omega
  refine ⟨?_, ?_⟩
  · intro b hb
    obtain ⟨c, hc, rfl⟩ := List.mem_map.mp hb
    rw [ofNat_toNat_of_lt (by have := hlt c hc; omega)]
    exact hlt c hc
  · rw [decimal, List.map_map]
    refine (List.map_congr_left fun c hc => ?_).trans (List.map_id _)
    exact ofNat_toNat_of_lt (by have := hlt c hc; omega)

theorem shapeText_ascii (shape : List Int) : ∀ b ∈ shapeText shape, b.toNat < 0x80 := by
  have hcomma : ∀ b ∈ cstr ",", b.toNat < 0x80 := ascii_of_all (by decide)
  induction shape with
  | nil => exact fun b hb => absurd hb List.not_mem_nil
  | cons d rest ih =>
      cases rest with
      | nil => exact (decimal_ascii d).1
      | cons e more =>
          intro b hb
          rw [shapeText, List.mem_append, List.mem_append] at hb
          · rcases hb with (hb | hb) | hb
            · exact (decimal_ascii d).1 b hb
            · exact hcomma b hb
            · exact ih b hb
          · simp

/-- **A printed value is decoded** when its text is UTF-8. -/
theorem utf8Decode_value (v : Value Bytes) (rest : Bytes) :
    utf8Decode (v.bytes ++ rest) =
      v.decode.bind fun v => (utf8Decode rest).map fun tail => v.print ++ tail := by
  have hascii34 : ((34 : UInt8)).toNat < 0x80 := by decide
  cases v with
  | number z =>
      obtain ⟨hascii, hprint⟩ := decimal_ascii z
      rw [Value.bytes, utf8Decode_ascii_append hascii, hprint]
      rfl
  | text s =>
      have hsplit : (Value.text s).bytes ++ rest =
          [34] ++ (jsonEscape s ++ 34 :: rest) := by
        simp [Value.bytes]
      have hopen : ∀ c ∈ ([34] : Bytes), c.toNat < 0x80 := ascii_of_all (by decide)
      have hclose := utf8Decode_ascii_append hopen rest
      rw [List.cons_append, List.nil_append] at hclose
      rw [hsplit, utf8Decode_ascii_append hopen, utf8Decode_append hascii34,
        utf8Decode_jsonEscape, hclose, Value.decode]
      cases utf8Decode s with
      | none => rfl
      | some text =>
          cases utf8Decode rest with
          | none => rfl
          | some tail => simp [Value.print]
  | tensor shape dtype =>
      have hsplit : (Value.tensor shape dtype).bytes ++ rest =
          cstr "\x7b\"shape\":[" ++ (shapeText shape ++ (cstr "],\"dtype\":\"" ++
            (jsonEscape dtype ++ 34 :: (cstr "\x7d" ++ rest)))) := by
        simp only [Value.bytes, List.append_assoc]
        rfl
      have hopen : ∀ c ∈ cstr "\x7b\"shape\":[", c.toNat < 0x80 := ascii_of_all (by decide)
      have hmiddle : ∀ c ∈ cstr "],\"dtype\":\"", c.toNat < 0x80 := ascii_of_all (by decide)
      have hbraces : ∀ c ∈ (34 :: cstr "\x7d" : Bytes), c.toNat < 0x80 := ascii_of_all (by decide)
      have hclose := utf8Decode_ascii_append hbraces rest
      rw [List.cons_append] at hclose
      rw [hsplit, utf8Decode_ascii_append hopen, utf8Decode_ascii_append (shapeText_ascii shape),
        utf8Decode_ascii_append hmiddle, utf8Decode_append hascii34, utf8Decode_jsonEscape,
        hclose, Value.decode]
      cases utf8Decode dtype with
      | none => rfl
      | some text =>
          cases utf8Decode rest with
          | none => rfl
          | some tail =>
              simp only [Value.print, Option.map_some, Option.bind_some,
                Option.some.injEq, List.append_assoc]
              rfl

/-- Keys are ASCII. -/
theorem key_ascii (k : Key) :
    (∀ b ∈ k.bytes, b.toNat < 0x80) ∧ k.bytes.map UInt8.toNat = py k.text := by
  cases k <;> exact ⟨ascii_of_all (by decide), by decide⟩

/-- A printed field is decoded when its text is UTF-8. -/
theorem utf8Decode_field (k : Key) (v : Value Bytes) (rest : Bytes) :
    utf8Decode (fieldBytes (k, v) ++ rest) =
      v.decode.bind fun v => (utf8Decode rest).map fun tail =>
        fieldPrint (k, v) ++ tail := by
  obtain ⟨hascii, hprint⟩ := key_ascii k
  have hfront : ∀ c ∈ 34 :: (k.bytes ++ [34, 58]), c.toNat < 0x80 := by
    intro c hc
    simp only [List.mem_cons, List.mem_append, List.not_mem_nil, or_false] at hc
    rcases hc with rfl | hc | rfl | rfl
    · decide
    · exact hascii c hc
    · decide
    · decide
  have hsplit : fieldBytes (k, v) ++ rest =
      (34 :: (k.bytes ++ [34, 58])) ++ (v.bytes ++ rest) := by
    simp [fieldBytes]
  rw [hsplit, utf8Decode_ascii_append hfront, utf8Decode_value v]
  cases v.decode with
  | none => rfl
  | some v =>
      cases utf8Decode rest with
      | none => rfl
      | some tail => simp [fieldPrint, hprint]

/-- Printed fields are decoded when all their texts are UTF-8. -/
theorem utf8Decode_more (fields : List (Key × Value Bytes)) :
    utf8Decode (moreBytes fields ++ [125]) =
      (decodeFields fields).map fun fields => morePrint fields ++ [125] := by
  induction fields with
  | nil => rfl
  | cons f rest ih =>
      obtain ⟨k, v⟩ := f
      have hcomma : ∀ c ∈ ([44] : Bytes), c.toNat < 0x80 := ascii_of_all (by decide)
      have hsplit : moreBytes ((k, v) :: rest) ++ [125] =
          [44] ++ (fieldBytes (k, v) ++ (moreBytes rest ++ [125])) := by
        simp [moreBytes]
      rw [hsplit, utf8Decode_ascii_append hcomma, utf8Decode_field, ih, decodeFields]
      cases v.decode with
      | none => rfl
      | some v =>
          cases decodeFields rest with
          | none => rfl
          | some fields => simp [morePrint]

/-- **A printed header is text** exactly when its texts are. -/
theorem utf8Decode_headerToJson (h : Header) :
    utf8Decode (headerToJson h) = (decodeFields h.moreFields).map fun fields =>
      123 :: (fieldPrint (.protocolVersion, .number h.protocolVersion) ++
        (morePrint fields ++ [125])) := by
  have hbrace : ∀ c ∈ ([123] : Bytes), c.toNat < 0x80 := ascii_of_all (by decide)
  have hsplit : headerToJson h = [123] ++
      (fieldBytes (.protocolVersion, .number h.protocolVersion) ++
        (moreBytes h.moreFields ++ [125])) := by
    rw [headerToJson_eq]
    rfl
  rw [hsplit, utf8Decode_ascii_append hbrace, utf8Decode_field, utf8Decode_more]
  cases decodeFields h.moreFields with
  | none => rfl
  | some fields => rfl

end Native
end FrigateXdna
