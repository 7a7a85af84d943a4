import Mathlib.Data.List.Infix
import FrigateXdna.Native.Requests

/-!
# The requests that arrive as they were sent

A text arrives when it is printable ASCII, and a key is taken from a value that ends in it.

Main results:

- Theorem {lit}`namesKey_iff`: the values in which the worker finds a key.
- Theorem {lit}`request_read_iff`: exactly which requests arrive as they were sent.
- Theorem {lit}`inferHeader_read`: every INFER of the supervisor does.
- Theorem {lit}`accentedPath_misread`: a path that does not.
-/

namespace FrigateXdna
namespace Native

open Python Library

/-! ## Values that end in a key -/

/-- A value ends in a key, behind a quote of its own or behind the one that opens it. -/
def EndsInKey (value : PyStr) (k : Key) : Prop :=
  34 :: py k.text <:+ 34 :: value

instance (value : PyStr) (k : Key) : Decidable (EndsInKey value k) :=
  inferInstanceAs (Decidable (_ <:+ _))

/-- A text that prints as a key is the key. -/
theorem escaped_eq_key {s : PyStr} {k : Key} : escaped s = k.bytes ↔ s = py k.text := by
  have hplain : ∀ {t : PyStr}, (92 : UInt8) ∉ escaped t →
      escaped t = t.map UInt8.ofNat ∧ ∀ c ∈ t, c < 256 := by
    intro t ht
    induction t with
    | nil => exact ⟨rfl, by simp⟩
    | cons c cs ih =>
        rw [escaped_cons, List.mem_append, not_or] at ht
        obtain ⟨hrest, hlt⟩ := ih ht.2
        have hcases := escapeChar_cases c
        have hchar : escapeChar c = [c] ∧ c < 256 := by
          have hmem := ht.1
          generalize escapeChar c = text at hcases hmem
          cases hcases with
          | plain hlo hhi => exact ⟨rfl, by omega⟩
          | marked => exact absurd List.mem_cons_self hmem
          | letter => exact absurd List.mem_cons_self hmem
          | short => exact absurd List.mem_cons_self hmem
          | long => exact absurd List.mem_cons_self hmem
        refine ⟨?_, ?_⟩
        · rw [escaped_cons, hchar.1, hrest]
          rfl
        · intro d hd
          rcases List.mem_cons.mp hd with rfl | hd
          · exact hchar.2
          · exact hlt d hd
  have hkey : ∀ c ∈ py k.text, c < 256 := by
    cases k <;> decide
  have hword : escaped (py k.text) = k.bytes := by
    cases k <;> decide
  have hid : ∀ {t : PyStr}, (∀ c ∈ t, c < 256) → (t.map UInt8.ofNat).map UInt8.toNat = t := by
    intro t ht
    rw [List.map_map]
    exact (List.map_congr_left fun c hc => ofNat_toNat_of_lt (ht c hc)).trans (List.map_id t)
  constructor
  · intro h
    have hback : (92 : UInt8) ∉ escaped s := h ▸ k.quote_notMem.2.2
    obtain ⟨heq, hlt⟩ := hplain hback
    have hmap : s.map UInt8.ofNat = (py k.text).map UInt8.ofNat := heq.symm.trans h
    rw [← hid hlt, hmap, hid hkey]
  · rintro rfl
    exact hword

/-- What stands behind the last quote. -/
theorem lastPiece_eq_key {s : PyStr} {k : Key} {piece : Bytes} :
    lastPiece piece s = k.bytes ↔
      (piece ++ escaped s = k.bytes ∧ 34 ∉ s) ∨ 34 :: py k.text <:+ s := by
  induction s generalizing piece with
  | nil => simp [lastPiece]
  | cons c cs ih =>
      have hnone : 34 ∉ py k.text := by
        cases k <;> decide
      by_cases hc : c = 34
      · subst hc
        rw [lastPiece, if_pos rfl, ih, List.nil_append, escaped_eq_key, List.suffix_cons_iff]
        constructor
        · rintro (⟨rfl, -⟩ | hsuffix)
          · exact Or.inr (Or.inl rfl)
          · exact Or.inr (Or.inr hsuffix)
        · rintro (⟨-, hmem⟩ | heq | hsuffix)
          · exact absurd List.mem_cons_self hmem
          · obtain rfl := (List.cons.inj heq).2
            exact Or.inl ⟨rfl, hnone⟩
          · exact Or.inr hsuffix
      · have hhead : 34 :: py k.text ≠ c :: cs := fun heq => hc (List.cons.inj heq).1.symm
        rw [lastPiece, if_neg hc, ih, escaped_cons, List.append_assoc, List.suffix_cons_iff,
          List.mem_cons, not_or]
        constructor
        · rintro (⟨heq, hmem⟩ | hsuffix)
          · exact Or.inl ⟨heq, Ne.symm hc, hmem⟩
          · exact Or.inr (Or.inr hsuffix)
        · rintro (⟨heq, -, hmem⟩ | heq | hsuffix)
          · exact Or.inl ⟨heq, hmem⟩
          · exact absurd heq hhead
          · exact Or.inr hsuffix

/-- **The values in which the worker finds a key.** -/
theorem namesKey_iff {value : PyStr} {k : Key} : namesKey value k ↔ EndsInKey value k := by
  have hnone : 34 ∉ py k.text := by
    cases k <;> decide
  rw [namesKey, lastPiece_eq_key, List.nil_append, escaped_eq_key, EndsInKey,
    List.suffix_cons_iff]
  constructor
  · rintro (⟨rfl, -⟩ | hsuffix)
    · exact Or.inl rfl
    · exact Or.inr hsuffix
  · rintro (heq | hsuffix)
    · obtain rfl := (List.cons.inj heq).2
      exact Or.inl ⟨rfl, hnone⟩
    · exact Or.inr hsuffix

/-! ## Which requests arrive as they were sent -/

/-- The JSON bytes of a frame. -/
def headerBytes (wire : Bytes) : Bytes :=
  (wire.drop 4).take (Runtime.unpackLength (wire.take 4))

/-- The requests that the worker reads as they were sent.  Texts are printable ASCII and a
path does not end in a key of another value; a tensor type has no quote or backslash. -/
def Request.Readable (r g len : Nat) : Request → Prop
  | .load path digest n =>
      Printable path ∧ Printable digest ∧ ¬ EndsInKey path .messageType ∧
        (EndsInKey path .requestId → n = r) ∧ (EndsInKey path .workerGeneration → n = g) ∧
        (EndsInKey path .payloadLength → n.toNat = len) ∧
        (EndsInKey path .servingDigest → digest = [])
  | .infer _ dtype =>
      Printable dtype ∧ 34 ∉ dtype ∧ 92 ∉ dtype ∧ (dtype = py "worker_generation" → g = 0)
  | .shutdown => True

instance (r g len : Nat) (q : Request) : Decidable (q.Readable r g len) :=
  match q with
  | .load _ _ _ => inferInstanceAs (Decidable (_ ∧ _))
  | .infer _ _ => inferInstanceAs (Decidable (_ ∧ _))
  | .shutdown => isTrue trivial

/-- A frame gives its header back. -/
theorem headerBytes_frame {js : Bytes} (hlen : js.length < 2 ^ 32) (payload : Bytes) :
    headerBytes (frame js payload) = js := by
  have htake : (frame js payload).take 4 = Runtime.packLength js.length := by
    rw [frame, List.append_assoc]
    exact List.take_left' (packLength_length _)
  have hdrop : (frame js payload).drop 4 = js ++ payload := by
    rw [frame, List.append_assoc]
    exact List.drop_left' (packLength_length _)
  rw [headerBytes, htake, hdrop, unpackLength_packLength hlen, List.take_left]

/-- The bytes of an accepted request. -/
theorem headerBytes_of_ok {fields : Runtime.Fields} {payload wire : Bytes}
    (h : Runtime.sendMessage fields payload = .ok wire) :
    headerBytes wire = Runtime.encodeHeader (Runtime.wireHeader fields payload) ∧
      (Runtime.encodeHeader (Runtime.wireHeader fields payload)).length ≤ maxHeaderBytes := by
  unfold Runtime.sendMessage at h
  split_ifs at h with htype hversion htensor hmodel hlen
  obtain rfl := Except.ok.inj h
  have hbound : (Runtime.encodeHeader (Runtime.wireHeader fields payload)).length ≤
      16 * 1024 := Nat.not_lt.mp hlen
  exact ⟨headerBytes_frame (by omega) payload, hbound⟩

/-- A LOAD arrives as it was sent exactly when it is readable. -/
theorem load_conveys_iff {path digest : PyStr} {n : Int} {r g len : Nat}
    (hn : -2 ^ 31 ≤ n ∧ n < 2 ^ 31) (hr : r < 2 ^ 63) (hg : g < 2 ^ 63) (hlen : len < 2 ^ 63)
    (hbound : (loadText path digest n r g len).length ≤ maxHeaderBytes) :
    (∃ h, jsonToHeader (loadText path digest n r g len) = (h, none) ∧
        Conveys h r g len (.load path digest n)) ↔
      (Request.load path digest n).Readable r g len := by
  have hword : Word n := ⟨by omega, by omega⟩
  have hclasses : toInt32 n = n := toInt32_of_bounds hn.1 hn.2
  by_cases hkey : namesKey path .messageType
  · have hrefused : (jsonToHeader (loadText path digest n r g len)).2 ≠ none := by
      refine jsonToHeader_unknown ?_
      rw [load_type, if_pos hkey]
      decide
    constructor
    · rintro ⟨h, heq, -⟩
      exact absurd (congrArg Prod.snd heq) hrefused
    · rintro ⟨-, -, hno, -⟩
      exact absurd (namesKey_iff.mp hkey) hno
  · rw [jsonToHeader_load hword hr hg hlen hbound hkey]
    simp only [Request.Readable, ← namesKey_iff]
    constructor
    · rintro ⟨h, heq, hconveys⟩
      obtain rfl := (Prod.mk.inj heq).1
      have hrequest : (if namesKey path .requestId then n else (r : Int)) = r :=
        hconveys.requestId
      have hgeneration : (if namesKey path .workerGeneration then n else (g : Int)) = g :=
        hconveys.workerGeneration
      have hpayload : (if namesKey path .payloadLength then n.toNat else len) = len :=
        hconveys.payloadLength
      have hdigest : utf8Decode (if namesKey path .servingDigest then []
          else (readBack digest).map UInt8.ofNat) = some digest := hconveys.servingDigest
      have hdigestEmpty : namesKey path .servingDigest → digest = [] := by
        intro hnames
        rw [if_pos hnames] at hdigest
        exact (Option.some.inj hdigest).symm
      have hdigestPrintable : Printable digest := by
        by_cases hnames : namesKey path .servingDigest
        · rw [hdigestEmpty hnames]
          exact fun c hc => absurd hc List.not_mem_nil
        · rw [if_neg hnames] at hdigest
          exact (readBack_decode_iff digest).mp hdigest
      refine ⟨(readBack_decode_iff path).mp hconveys.artifactPath, hdigestPrintable, hkey, ?_, ?_,
        ?_, hdigestEmpty⟩
      · intro hnames
        rwa [if_pos hnames] at hrequest
      · intro hnames
        rwa [if_pos hnames] at hgeneration
      · intro hnames
        rwa [if_pos hnames] at hpayload
    · rintro ⟨hpath, hdigest, -, hrequest, hgeneration, hpayload, hempty⟩
      refine ⟨_, rfl, ?_⟩
      constructor
      · rfl
      · show (if namesKey path .requestId then n else (r : Int)) = r
        split
        · exact hrequest ‹_›
        · rfl
      · show (if namesKey path .workerGeneration then n else (g : Int)) = g
        split
        · exact hgeneration ‹_›
        · rfl
      · exact (readBack_decode_iff path).mpr hpath
      · show utf8Decode (if namesKey path .servingDigest then []
          else (readBack digest).map UInt8.ofNat) = some digest
        split
        · rw [hempty ‹_›]
          rfl
        · exact (readBack_decode_iff digest).mpr hdigest
      · exact hclasses
      · rfl
      · rfl
      · show (if namesKey path .payloadLength then n.toNat else len) = len
        split
        · exact hpayload ‹_›
        · rfl

/-- Text without a quote prints without one. -/
theorem quote_notMem_escaped {s : PyStr} (h : 34 ∉ s) : 34 ∉ escaped s := by
  induction s with
  | nil => exact List.not_mem_nil
  | cons c cs ih =>
      rw [List.mem_cons, not_or] at h
      rw [escaped_cons, List.mem_append, not_or]
      exact ⟨quote_notMem_escapeChar (Ne.symm h.1), ih h.2⟩

/-- Printed text is printable. -/
theorem escaped_bounds {s : PyStr} {b : UInt8} (h : b ∈ escaped s) :
    32 ≤ b.toNat ∧ b.toNat ≤ 126 := by
  obtain ⟨d, hd, rfl⟩ := List.mem_map.mp h
  obtain ⟨c, -, hdc⟩ := List.mem_flatMap.mp hd
  have hbounds := (escapeChar_cases c).printable hdc
  rwa [ofNat_toNat_of_lt (by omega)]

/-- Escapes make a text longer. -/
theorem length_le_escaped (s : PyStr) :
    s.length ≤ (escaped s).length ∧ (92 ∈ s → s.length < (escaped s).length) := by
  induction s with
  | nil => simp
  | cons c cs ih =>
      obtain ⟨hle, hlt⟩ := ih
      have hchar : 1 ≤ (escapeChar c).length ∧ (c = 92 → 1 < (escapeChar c).length) := by
        have hcases := escapeChar_cases c
        generalize escapeChar c = text at hcases
        cases hcases <;> simp
        omega
      rw [escaped_cons, List.length_append, List.length_map, List.length_cons, List.mem_cons]
      refine ⟨by omega, ?_⟩
      rintro (rfl | hmem)
      · have := hchar.2 rfl
        omega
      · have := hlt hmem
        omega

/-- Printable text without a quote or a backslash prints as it is. -/
theorem escaped_of_plain {s : PyStr} (h : Printable s) (hquote : 34 ∉ s) (hback : 92 ∉ s) :
    escaped s = s.map UInt8.ofNat := by
  induction s with
  | nil => rfl
  | cons c cs ih =>
      rw [List.mem_cons, not_or] at hquote hback
      have hc := h c List.mem_cons_self
      have hchar : escapeChar c = [c] := by
        have hcases := escapeChar_cases c
        generalize escapeChar c = text at hcases
        cases hcases with
        | marked hmark => omega
        | plain => rfl
        | letter e hlo hhi hlt => omega
        | short n hno => exact absurd hc hno
        | long n m hno => exact absurd hc hno
      rw [escaped_cons, hchar, ih (fun d hd => h d (List.mem_cons_of_mem c hd)) hquote.2 hback.2]
      rfl

/-- The type that is read is the one that was sent, exactly for printable text without a
quote or a backslash. -/
theorem dtype_decode_iff (dtype : PyStr) :
    utf8Decode ((escaped dtype).takeWhile fun c => c != 34) = some dtype ↔
      Printable dtype ∧ 34 ∉ dtype ∧ 92 ∉ dtype := by
  have hwhole : 34 ∉ dtype → ((escaped dtype).takeWhile fun c => c != 34) = escaped dtype := by
    intro hquote
    rw [List.takeWhile_eq_self_iff]
    intro b hb
    rw [bne_iff_ne]
    rintro rfl
    exact quote_notMem_escaped hquote hb
  constructor
  · intro h
    have hascii : ∀ b ∈ (escaped dtype).takeWhile (fun c => c != 34),
        32 ≤ b.toNat ∧ b.toNat ≤ 126 ∧ b ≠ 34 := by
      intro b hb
      have hbounds := escaped_bounds ((List.takeWhile_sublist _).subset hb)
      have hne : (b != 34) = true := List.mem_takeWhile_imp (p := fun c => c != 34) hb
      exact ⟨hbounds.1, hbounds.2, bne_iff_ne.mp hne⟩
    rw [utf8Decode_ascii _ (fun b hb => by have := hascii b hb; omega), Option.some.injEq] at h
    have hprintable : Printable dtype := by
      intro c hc
      rw [← h] at hc
      obtain ⟨b, hb, rfl⟩ := List.mem_map.mp hc
      exact ⟨(hascii b hb).1, (hascii b hb).2.1⟩
    have hquote : 34 ∉ dtype := by
      intro hmem
      rw [← h] at hmem
      obtain ⟨b, hb, heq⟩ := List.mem_map.mp hmem
      exact (hascii b hb).2.2 (UInt8.toNat_inj.mp heq)
    have hlength : dtype.length = (escaped dtype).length := by
      rw [hwhole hquote] at h
      rw [← congrArg List.length h, List.length_map]
    refine ⟨hprintable, hquote, fun hback => ?_⟩
    have := (length_le_escaped dtype).2 hback
    omega
  · rintro ⟨hprintable, hquote, hback⟩
    rw [hwhole hquote, escaped_of_plain hprintable hquote hback]
    exact utf8Decode_printable hprintable

/-- An INFER arrives as it was sent exactly when it is readable. -/
theorem infer_conveys_iff {shape : List Int} {dtype : PyStr} {r g len : Nat}
    (hshape : ∀ d ∈ shape, -2 ^ 31 ≤ d ∧ d < 2 ^ 31) (hr : r < 2 ^ 63) (hg : g < 2 ^ 63)
    (hlen : len < 2 ^ 63)
    (hbound : (inferText shape dtype r g len).length ≤ maxHeaderBytes) :
    (∃ h, jsonToHeader (inferText shape dtype r g len) = (h, none) ∧
        Conveys h r g len (.infer shape dtype)) ↔
      (Request.infer shape dtype).Readable r g len := by
  rw [jsonToHeader_infer hshape hr hg hlen hbound, Request.Readable, ← and_assoc, ← and_assoc,
    and_assoc (a := Printable dtype), ← dtype_decode_iff]
  have hnames : 34 ∉ dtype →
      (namesKey dtype .workerGeneration ↔ dtype = py "worker_generation") := by
    intro hquote
    rw [namesKey_iff, EndsInKey, List.suffix_cons_iff]
    constructor
    · rintro (heq | hsuffix)
      · exact (List.cons.inj heq).2.symm
      · exact absurd (hsuffix.subset List.mem_cons_self) hquote
    · rintro rfl
      exact Or.inl rfl
  constructor
  · rintro ⟨h, heq, hconveys⟩
    obtain rfl := (Prod.mk.inj heq).1
    have hdtype : utf8Decode ((escaped dtype).takeWhile fun c => c != 34) = some dtype :=
      hconveys.dtype
    have hgeneration : (if namesKey dtype .workerGeneration then 0 else (g : Int)) = g :=
      hconveys.workerGeneration
    refine ⟨hdtype, fun hkey => ?_⟩
    rw [if_pos ((hnames ((dtype_decode_iff dtype).mp hdtype).2.1).mpr hkey)] at hgeneration
    omega
  · rintro ⟨hdtype, hgeneration⟩
    have hquote : 34 ∉ dtype := ((dtype_decode_iff dtype).mp hdtype).2.1
    refine ⟨_, rfl, ?_⟩
    constructor
    · rfl
    · rfl
    · show (if namesKey dtype .workerGeneration then 0 else (g : Int)) = g
      split
      · rw [hgeneration ((hnames hquote).mp ‹_›)]
        rfl
      · rfl
    · rfl
    · rfl
    · rfl
    · rfl
    · exact hdtype
    · rfl

/-- **Every INFER that {lit}`infer` sends arrives as it was sent.** -/
theorem inferHeader_read {shape : List Int} {r g : Nat} {payload wire : Bytes}
    (hshape : ∀ d ∈ shape, -2 ^ 31 ≤ d ∧ d < 2 ^ 31) (hr : r < 2 ^ 63) (hg : g < 2 ^ 63)
    (hpayload : payload.length < 2 ^ 63)
    (h : Runtime.sendMessage
      (Runtime.NativeWorker.inferHeader r (shape.map .int) g) payload = .ok wire) :
    ∃ hdr, jsonToHeader (headerBytes wire) = (hdr, none) ∧
      Conveys hdr r g payload.length (.infer shape (py "float32")) := by
  rw [← inferFields_float32] at h
  have hsent : Runtime.sendMessage ((Request.infer shape (py "float32")).fields r g) payload =
      .ok wire := h
  have hreadable : (Request.infer shape (py "float32")).Readable r g payload.length :=
    ⟨by decide, by decide, by decide, fun hkey => absurd hkey (by decide)⟩
  obtain ⟨hbytes, hbound⟩ := headerBytes_of_ok hsent
  rw [encodeHeader_request] at hbytes hbound
  rw [hbytes]
  exact (infer_conveys_iff hshape hr hg hpayload hbound).mpr hreadable

/-- **The requests that arrive as they were sent.** -/
theorem request_read_iff {q : Request} {r g : Nat} {payload wire : Bytes} (hq : q.Bounded)
    (hr : r < 2 ^ 63) (hg : g < 2 ^ 63) (hpayload : payload.length < 2 ^ 63)
    (h : Runtime.sendMessage (q.fields r g) payload = .ok wire) :
    (∃ hdr, jsonToHeader (headerBytes wire) = (hdr, none) ∧
        Conveys hdr r g payload.length q) ↔ q.Readable r g payload.length := by
  obtain ⟨hbytes, hbound⟩ := headerBytes_of_ok h
  rw [hbytes, encodeHeader_request]
  rw [encodeHeader_request] at hbound
  cases q with
  | load path digest n => exact load_conveys_iff hq.1 hr hg hpayload hbound
  | infer shape dtype => exact infer_conveys_iff hq.2 hr hg hpayload hbound
  | shutdown =>
      rw [jsonToHeader_shutdown hr hg hpayload hbound]
      refine iff_of_true ⟨_, rfl, ?_⟩ trivial
      constructor <;> rfl

/-- A model of six classes below a path of ASCII letters. -/
def plainLoad : Request :=
  .load (py "/var/lib/x/model.onnx") (py "ab12") 6

/-- Its header on the wire, for request 3 and generation 1. -/
def plainWire : Bytes :=
  frame (Runtime.encodeHeader (Runtime.wireHeader (plainLoad.fields 3 1) [])) []

/-- A plain request arrives as it was sent. -/
theorem request_read_iff_plainLoad :
    Runtime.sendMessage (plainLoad.fields 3 1) [] = .ok plainWire ∧
      ∃ hdr, jsonToHeader (headerBytes plainWire) = (hdr, none) ∧ Conveys hdr 3 1 0 plainLoad := by
  have hsent : Runtime.sendMessage (plainLoad.fields 3 1) [] = .ok plainWire := by
    decide +kernel
  exact ⟨hsent, (request_read_iff (by decide) (by decide) (by decide) (by decide) hsent).mpr
    (by decide)⟩

/-- The same model below a path with an accent. -/
def accentedLoad : Request :=
  .load (py "/var/lib/caméra/model.onnx") (py "ab12") 6

/-- Its header on the wire. -/
def accentedWire : Bytes :=
  frame (Runtime.encodeHeader (Runtime.wireHeader (accentedLoad.fields 3 1) [])) []

/-- **An accented path does not arrive**: the worker reads the digits of its escape. -/
theorem accentedPath_misread :
    Runtime.sendMessage (accentedLoad.fields 3 1) [] = .ok accentedWire ∧
      ¬ ∃ hdr, jsonToHeader (headerBytes accentedWire) = (hdr, none) ∧
        Conveys hdr 3 1 0 accentedLoad := by
  have hread : (jsonToHeader (headerBytes accentedWire)).1.artifactPath =
      cstr "/var/lib/camu00e9ra/model.onnx" := by
    decide +kernel
  refine ⟨by decide +kernel, ?_⟩
  rintro ⟨hdr, heq, hconveys⟩
  have hpath := hconveys.artifactPath
  have hheader : (jsonToHeader (headerBytes accentedWire)).1 = hdr := by rw [heq]
  rw [← hheader, hread] at hpath
  exact absurd hpath (by decide +kernel)

end Native
end FrigateXdna
