import FrigateXdna.Native.Replies

/-!
# Reply headers as JSON

The supervisor reads a decoded header with {lit}`json.loads`.

Main results:

- Theorem {lit}`scanString_escaped`: a printed text is scanned.
- Theorem {lit}`scanFields_printed`: printed fields are read back.
- Theorem {lit}`loads_headerToJson`: a printed header is read when its texts are UTF-8.
-/

namespace FrigateXdna
namespace Native

open Python

/-! ## Scanning -/

/-- The scanner takes a printed code point for the code point. -/
def scansAs (c : Nat) : PyStr → Bool
  | [d] => d == c && decide (32 ≤ c ∧ c ≠ 34 ∧ c ≠ 92)
  | [92, e] => decide (e ≠ 117) && simpleEscape? e == some c
  | [92, 117, x, y, z, w] => hexUnit? x y z w == some c
  | _ => false

theorem scansAs_escapePoint (c : Nat) : scansAs c (escapePoint c) = true := by
  by_cases hc : c < 0x80
  · have hall : ∀ n < 0x80, scansAs n (escapePoint n) = true := by decide +kernel
    exact hall c hc
  · have hpoint : escapePoint c = [c] := if_neg hc
    rw [hpoint]
    simp only [scansAs, beq_self_eq_true, Bool.true_and, decide_eq_true_eq]
    omega

/-- One printed code point is scanned. -/
theorem scanString_point {c : Nat} {text : PyStr} (h : scansAs c text = true) (rest : PyStr) :
    scanString (text ++ rest) = (scanString rest).map fun r => (c :: r.1, r.2) := by
  unfold scansAs at h
  split at h
  · rename_i d
    simp only [Bool.and_eq_true, beq_iff_eq, decide_eq_true_eq] at h
    obtain ⟨rfl, hlo, hquote, hback⟩ := h
    have hctrl : ¬ d < 32 := by omega
    simp [scanString, hquote, hback, hctrl]
  · rename_i e
    simp only [Bool.and_eq_true, beq_iff_eq, decide_eq_true_eq] at h
    obtain ⟨he, hsimple⟩ := h
    simp [scanString, he, hsimple]
  · rename_i x y z w
    rw [beq_iff_eq] at h
    simp [scanString, h]
  · contradiction

/-- **A printed text is scanned** up to its closing quote. -/
theorem scanString_escaped (s rest : PyStr) :
    scanString (escapedText s ++ 34 :: rest) = some (s, rest) := by
  induction s with
  | nil => simp [escapedText, scanString]
  | cons c cs ih =>
      have hcons : escapedText (c :: cs) = escapePoint c ++ escapedText cs := rfl
      rw [hcons, List.append_assoc, scanString_point (scansAs_escapePoint c), ih]
      rfl

/-- Keys are printed as they are. -/
theorem scanString_key (k : Key) (rest : PyStr) :
    scanString (py k.text ++ 34 :: rest) = some (py k.text, rest) := by
  have hplain : escapedText (py k.text) = py k.text := by
    cases k <;> decide
  have hscan := scanString_escaped (py k.text) rest
  rwa [hplain] at hscan

theorem joinSurrogates_key (k : Key) : joinSurrogates (py k.text) = py k.text := by
  cases k <;> decide

/-- The value that is read. -/
def Value.json : Value PyStr → Json
  | .number z => .int z
  | .text s => .str s
  | .tensor shape dtype =>
      .obj [(py "shape", .arr (shape.map .int)), (py "dtype", .str dtype)]

/-- Numbers are machine words and texts have no surrogates. -/
def Value.Sound : Value PyStr → Prop
  | .number z => z.natAbs < 2 ^ 64
  | .text s => ∀ c ∈ s, Scalar c
  | .tensor shape dtype => (∀ d ∈ shape, d.natAbs < 2 ^ 64) ∧ ∀ c ∈ dtype, Scalar c

/-- How many nested calls a value takes. -/
def Value.calls : Value PyStr → Nat
  | .tensor shape _ => shape.length + 4
  | _ => 1

/-- No printed value starts with a blank. -/
theorem skipBlank_print (v : Value PyStr) (rest : PyStr) :
    skipBlank (v.print ++ rest) = v.print ++ rest := by
  cases v with
  | number z =>
      obtain ⟨c, more, hz, hc⟩ := intRepr_head z
      rw [Value.print, hz]
      exact skipBlank_cons (by omega) _
  | text s => exact skipBlank_cons (by decide) _
  | tensor shape dtype => exact skipBlank_cons (by decide) _

/-- A printed text is read. -/
theorem scanValue_text {s : PyStr} (hs : ∀ c ∈ s, Scalar c) (rest : PyStr) (fuel depth : Nat) :
    scanValue (fuel + 1) depth (34 :: (escapedText s ++ 34 :: rest)) = .ok (.str s, rest) := by
  rw [scanValue, scanString_escaped]
  dsimp only
  rw [joinSurrogates_eq_self hs]

/-- Printed dimensions start with the first one. -/
theorem shapeText_head (d : Int) (shape : List Int) (rest : PyStr) :
    ∃ c tail, (shapeText (d :: shape)).map UInt8.toNat ++ rest = c :: tail ∧
      (c = 45 ∨ 48 ≤ c ∧ c ≤ 57) := by
  obtain ⟨c, more, hd, hc⟩ := intRepr_head d
  cases shape with
  | nil =>
      have hprint : (shapeText [d]).map UInt8.toNat = intRepr d := (decimal_ascii d).2
      rw [hprint, hd]
      exact ⟨c, more ++ rest, rfl, hc⟩
  | cons e dims =>
      have hprint : (shapeText (d :: e :: dims)).map UInt8.toNat =
          intRepr d ++ 44 :: (shapeText (e :: dims)).map UInt8.toNat := by
        rw [← (decimal_ascii d).2]
        simp [shapeText, cstr, py]
      rw [hprint, hd]
      exact ⟨c, _, rfl, hc⟩

/-- They do not start with a blank. -/
theorem skipBlank_shape (d : Int) (shape : List Int) (rest : PyStr) :
    skipBlank ((shapeText (d :: shape)).map UInt8.toNat ++ rest) =
      (shapeText (d :: shape)).map UInt8.toNat ++ rest := by
  obtain ⟨c, tail, htail, hc⟩ := shapeText_head d shape rest
  rw [htail]
  exact skipBlank_cons (by omega) _

/-- Printed dimensions are read. -/
theorem scanItems_shape {d : Int} {shape : List Int} (h : ∀ e ∈ d :: shape, e.natAbs < 2 ^ 64)
    (rest : PyStr) {fuel : Nat} (hfuel : shape.length + 1 < fuel) (depth : Nat) :
    scanItems fuel depth ((shapeText (d :: shape)).map UInt8.toNat ++ 93 :: rest) =
      .ok ((d :: shape).map .int, rest) := by
  induction shape generalizing d fuel with
  | nil =>
      obtain ⟨fuel, rfl⟩ : ∃ n, fuel = n + 2 := ⟨fuel - 2, by simp at hfuel; omega⟩
      have hprint : (shapeText [d]).map UInt8.toNat = intRepr d := (decimal_ascii d).2
      rw [hprint, scanItems, scanValue_intRepr (natDigits_length_le_max (h d List.mem_cons_self))
        (endsNumber_cons (Or.inr (Or.inl rfl)) _)]
      simp [skipBlank]
  | cons e more ih =>
      obtain ⟨fuel, rfl⟩ : ∃ n, fuel = n + 2 := ⟨fuel - 2, by simp at hfuel; omega⟩
      have hprint : (shapeText (d :: e :: more)).map UInt8.toNat =
          intRepr d ++ 44 :: (shapeText (e :: more)).map UInt8.toNat := by
        rw [← (decimal_ascii d).2]
        simp [shapeText, cstr, py]
      have hnext : scanItems (fuel + 1) depth
          ((shapeText (e :: more)).map UInt8.toNat ++ 93 :: rest) =
            .ok ((e :: more).map .int, rest) := by
        refine ih (fun x hx => h x (List.mem_cons_of_mem d hx)) ?_
        simp only [List.length_cons] at hfuel
        omega
      have hcomma : skipBlank (44 :: ((shapeText (e :: more)).map UInt8.toNat ++ 93 :: rest)) =
          44 :: ((shapeText (e :: more)).map UInt8.toNat ++ 93 :: rest) :=
        skipBlank_cons (by decide) _
      rw [hprint, List.append_assoc, List.cons_append, scanItems,
        scanValue_intRepr (natDigits_length_le_max (h d List.mem_cons_self))
          (endsNumber_cons (Or.inl rfl) _)]
      simp only [hcomma, skipBlank_shape, hnext]
      rfl

/-- A field in front of another one. -/
theorem scanFields_comma {k : Key} {body rest : PyStr} {j : Json} {fuel depth : Nat}
    (hbody : skipBlank body = body) (hscan : scanValue fuel depth body = .ok (j, 44 :: rest))
    (seen : List (PyStr × Json)) :
    scanFields (fuel + 1) depth seen (34 :: (py k.text ++ 34 :: 58 :: body)) =
      scanFields fuel depth (setField (py k.text) j seen) (skipBlank rest) := by
  have hcolon : skipBlank (58 :: body) = 58 :: body := skipBlank_cons (by decide) _
  have hcomma : skipBlank (44 :: rest) = 44 :: rest := skipBlank_cons (by decide) _
  rw [scanFields, scanString_key]
  simp only [hcolon, hbody, hscan, hcomma, joinSurrogates_key]

/-- The last field. -/
theorem scanFields_brace {k : Key} {body rest : PyStr} {j : Json} {fuel depth : Nat}
    (hbody : skipBlank body = body) (hscan : scanValue fuel depth body = .ok (j, 125 :: rest))
    (seen : List (PyStr × Json)) :
    scanFields (fuel + 1) depth seen (34 :: (py k.text ++ 34 :: 58 :: body)) =
      .ok (setField (py k.text) j seen, rest) := by
  have hcolon : skipBlank (58 :: body) = 58 :: body := skipBlank_cons (by decide) _
  have hbrace : skipBlank (125 :: rest) = 125 :: rest := skipBlank_cons (by decide) _
  rw [scanFields, scanString_key]
  simp only [hcolon, hbody, hscan, hbrace, joinSurrogates_key]

/-- A printed list is read. -/
theorem scanValue_shape {shape : List Int} (h : ∀ d ∈ shape, d.natAbs < 2 ^ 64) (rest : PyStr)
    {fuel : Nat} (hfuel : shape.length < fuel) (depth : Nat) :
    scanValue (fuel + 1) (depth + 1) (91 :: ((shapeText shape).map UInt8.toNat ++ 93 :: rest)) =
      .ok (.arr (shape.map .int), rest) := by
  cases shape with
  | nil =>
      have hblank : skipBlank (93 :: rest) = 93 :: rest := skipBlank_cons (by decide) _
      simp [scanValue, shapeText, hblank]
  | cons d more =>
      have hitems := scanItems_shape h rest hfuel depth
      have hblank := skipBlank_shape d more (93 :: rest)
      obtain ⟨c, tail, htail, hc⟩ := shapeText_head d more (93 :: rest)
      have hclose : c ≠ 93 := by omega
      rw [htail] at hitems hblank ⊢
      simp [scanValue, hblank, hclose, hitems]

/-- An object with a field. -/
theorem scanValue_brace {body rest : PyStr} {fields : List (PyStr × Json)} {fuel depth : Nat}
    (hscan : scanFields fuel depth [] (34 :: body) = .ok (fields, rest)) :
    scanValue (fuel + 1) (depth + 1) (123 :: 34 :: body) = .ok (.obj fields, rest) := by
  have hopen : skipBlank (34 :: body) = 34 :: body := skipBlank_cons (by decide) _
  rw [scanValue]
  simp only [hopen, hscan]

/-- **A printed value is read.** -/
theorem scanValue_print {v : Value PyStr} (hv : v.Sound) {c : Nat} (hc : EndsInt c)
    (rest : PyStr) {fuel depth : Nat} (hfuel : v.calls ≤ fuel) (hdepth : 2 ≤ depth) :
    scanValue fuel depth (v.print ++ c :: rest) = .ok (v.json, c :: rest) := by
  cases v with
  | number z =>
      obtain ⟨fuel, rfl⟩ : ∃ n, fuel = n + 1 := ⟨fuel - 1, by simp [Value.calls] at hfuel; omega⟩
      exact scanValue_intRepr (natDigits_length_le_max hv) (endsNumber_cons hc rest) fuel depth
  | text s =>
      obtain ⟨fuel, rfl⟩ : ∃ n, fuel = n + 1 := ⟨fuel - 1, by simp [Value.calls] at hfuel; omega⟩
      have hsplit :
          (Value.text s).print ++ c :: rest = 34 :: (escapedText s ++ 34 :: (c :: rest)) := by
        simp [Value.print]
      rw [hsplit, scanValue_text hv]
      rfl
  | tensor shape dtype =>
      obtain ⟨fuel, rfl⟩ : ∃ n, fuel = n + 4 := ⟨fuel - 4, by simp [Value.calls] at hfuel; omega⟩
      obtain ⟨depth, rfl⟩ : ∃ n, depth = n + 2 := ⟨depth - 2, by omega⟩
      simp only [Value.calls] at hfuel
      -- the fields of the tensor, from the last one to the first
      have hdtype := scanValue_text hv.2 (125 :: c :: rest) fuel (depth + 1)
      have hlast := scanFields_brace (k := .dtype) (skipBlank_cons (by decide) _) hdtype
        (setField (py Key.shape.text) (.arr (shape.map .int)) [])
      have hlist := scanValue_shape hv.1 (44 :: 34 :: (py Key.dtype.text ++ 34 :: 58 ::
        (34 :: (escapedText dtype ++ 34 :: (125 :: c :: rest)))))
        (show shape.length < fuel + 1 by omega) depth
      have hfirst := scanFields_comma (k := .shape) (skipBlank_cons (by decide) _) hlist []
      have hnext : skipBlank (34 :: (py Key.dtype.text ++ 34 :: 58 ::
          (34 :: (escapedText dtype ++ 34 :: (125 :: c :: rest))))) =
          34 :: (py Key.dtype.text ++ 34 :: 58 ::
            (34 :: (escapedText dtype ++ 34 :: (125 :: c :: rest)))) :=
        skipBlank_cons (by decide) _
      rw [hnext, hlast] at hfirst
      have hsplit : (Value.tensor shape dtype).print ++ c :: rest =
          123 :: 34 :: (py Key.shape.text ++ 34 :: 58 ::
            (91 :: ((shapeText shape).map UInt8.toNat ++ 93 :: 44 :: 34 ::
              (py Key.dtype.text ++ 34 :: 58 ::
                (34 :: (escapedText dtype ++ 34 :: (125 :: c :: rest))))))) := by
        simp only [Value.print, List.append_assoc]
        rfl
      rw [hsplit, scanValue_brace hfirst]
      rfl

/-- What the fields add to a dictionary. -/
def addFields (seen : List (PyStr × Json)) (fields : List (Key × Value PyStr)) :
    List (PyStr × Json) :=
  fields.foldl (fun seen f => setField (py f.1.text) f.2.json seen) seen

/-- **Printed fields are read** one after the other. -/
theorem scanFields_printed {f : Key × Value PyStr} {more : List (Key × Value PyStr)}
    (hsound : ∀ g ∈ f :: more, g.2.Sound) (rest : PyStr) {fuel depth : Nat}
    (hfuel : ∀ g ∈ f :: more, more.length + 1 + g.2.calls ≤ fuel) (hdepth : 2 ≤ depth)
    (seen : List (PyStr × Json)) :
    scanFields fuel depth seen (fieldPrint f ++ (morePrint more ++ 125 :: rest)) =
      .ok (addFields seen (f :: more), rest) := by
  induction more generalizing f fuel seen with
  | nil =>
      have hf := hfuel f List.mem_cons_self
      obtain ⟨fuel, rfl⟩ : ∃ n, fuel = n + 1 := ⟨fuel - 1, by omega⟩
      have hscan := scanValue_print (hsound f List.mem_cons_self) (Or.inr (Or.inr rfl)) rest
        (show f.2.calls ≤ fuel by simp at hf; omega) hdepth
      have hsplit : fieldPrint f ++ (morePrint [] ++ 125 :: rest) =
          34 :: (py f.1.text ++ 34 :: 58 :: (f.2.print ++ 125 :: rest)) := by
        simp [fieldPrint, morePrint]
      rw [hsplit, scanFields_brace (skipBlank_print f.2 _) hscan]
      rfl
  | cons g more ih =>
      have hf := hfuel f List.mem_cons_self
      obtain ⟨fuel, rfl⟩ : ∃ n, fuel = n + 1 := ⟨fuel - 1, by omega⟩
      have hscan := scanValue_print (hsound f List.mem_cons_self) (Or.inl rfl)
        (fieldPrint g ++ (morePrint more ++ 125 :: rest))
        (show f.2.calls ≤ fuel by simp at hf; omega) hdepth
      have hsplit : fieldPrint f ++ (morePrint (g :: more) ++ 125 :: rest) =
          34 :: (py f.1.text ++ 34 :: 58 :: (f.2.print ++
            44 :: (fieldPrint g ++ (morePrint more ++ 125 :: rest)))) := by
        simp [fieldPrint, morePrint]
      have hblank : skipBlank (fieldPrint g ++ (morePrint more ++ 125 :: rest)) =
          fieldPrint g ++ (morePrint more ++ 125 :: rest) :=
        skipBlank_cons (by decide) _
      rw [hsplit, scanFields_comma (skipBlank_print f.2 _) hscan, hblank,
        ih (fun e he => hsound e (List.mem_cons_of_mem f he))
          (fun e he => by
            have := hfuel e (List.mem_cons_of_mem f he)
            simp only [List.length_cons] at this
            omega)]
      rfl

/-- A dimension takes a character. -/
theorem length_le_shapeText (shape : List Int) : shape.length ≤ (shapeText shape).length := by
  have hpos : ∀ d : Int, 0 < (decimal d).length := fun d =>
    List.length_pos_of_ne_nil (decimal_ne_nil d)
  induction shape with
  | nil => exact Nat.le_refl 0
  | cons d rest ih =>
      have hd := hpos d
      cases rest with
      | nil =>
          simp only [shapeText, List.length_cons, List.length_nil]
          omega
      | cons e more =>
          simp only [shapeText, List.length_append, List.length_cons] at ih ⊢
          omega

/-- A field takes fewer calls than characters. -/
theorem calls_le_fieldPrint (f : Key × Value PyStr) : f.2.calls ≤ (fieldPrint f).length := by
  obtain ⟨k, v⟩ := f
  simp only [fieldPrint, List.length_cons, List.length_append]
  cases v with
  | number z =>
      simp only [Value.calls]
      omega
  | text s =>
      simp only [Value.calls]
      omega
  | tensor shape dtype =>
      have hshape := length_le_shapeText shape
      have hopen : (py "\x7b\"shape\":[").length = 10 := rfl
      simp only [Value.calls, Value.print, List.length_append, List.length_map]
      omega

/-- So do several of them. -/
theorem calls_le_morePrint (fields : List (Key × Value PyStr)) :
    fields.length ≤ (morePrint fields).length ∧
      ∀ f ∈ fields, fields.length + f.2.calls ≤ (morePrint fields).length := by
  induction fields with
  | nil => simp [morePrint]
  | cons g rest ih =>
      obtain ⟨hlen, hcalls⟩ := ih
      have hg := calls_le_fieldPrint g
      have hsplit : (morePrint (g :: rest)).length =
          1 + (fieldPrint g).length + (morePrint rest).length := by
        simp only [morePrint, List.flatMap_cons, List.length_append, List.length_cons]
        omega
      rw [hsplit, List.length_cons]
      refine ⟨by omega, ?_⟩
      intro f hf
      rcases List.mem_cons.mp hf with rfl | hf
      · omega
      · have := hcalls f hf
        omega

/-- **A printed header is read** when its texts are UTF-8. -/
theorem loads_headerToJson (h : Header) {limit : Nat} (hlimit : 3 ≤ limit)
    (hversion : h.protocolVersion.natAbs < 2 ^ 64)
    (hsound : ∀ fields, decodeFields h.moreFields = some fields → ∀ f ∈ fields, f.2.Sound) :
    loads limit (headerToJson h) =
      match decodeFields h.moreFields with
      | none => .error .valueError
      | some fields =>
          .ok (.obj (addFields [] ((.protocolVersion, .number h.protocolVersion) :: fields))) := by
  rw [loads, utf8Decode_headerToJson]
  cases hfields : decodeFields h.moreFields with
  | none => rfl
  | some fields =>
      obtain ⟨depth, rfl⟩ : ∃ n, limit = n + 1 := ⟨limit - 1, by omega⟩
      obtain ⟨hlen, hcalls⟩ := calls_le_morePrint fields
      have hall : ∀ g ∈ (Key.protocolVersion, Value.number h.protocolVersion) :: fields,
          g.2.Sound := by
        intro g hg
        rcases List.mem_cons.mp hg with rfl | hg
        · exact hversion
        · exact hsound fields hfields g hg
      have hscan : ∀ fuel, (morePrint fields).length + 2 ≤ fuel →
          scanFields fuel depth [] (fieldPrint (.protocolVersion, .number h.protocolVersion) ++
            (morePrint fields ++ 125 :: [])) =
          .ok (addFields [] ((.protocolVersion, .number h.protocolVersion) :: fields), []) := by
        intro fuel hfuel
        refine scanFields_printed hall [] ?_ (by omega) []
        intro g hg
        rcases List.mem_cons.mp hg with rfl | hg
        · simp only [Value.calls]
          omega
        · have := hcalls g hg
          omega
      have hbrace : ∀ rest : PyStr, skipBlank (123 :: rest) = 123 :: rest :=
        skipBlank_cons (by decide)
      have hvalue : ∀ fuel, (morePrint fields).length + 2 ≤ fuel →
          scanValue (fuel + 1) (depth + 1)
            (123 :: (fieldPrint (.protocolVersion, .number h.protocolVersion) ++
              (morePrint fields ++ [125]))) =
          .ok (.obj (addFields [] ((.protocolVersion, .number h.protocolVersion) :: fields)),
            []) :=
        fun fuel hfuel => scanValue_brace (hscan fuel hfuel)
      have hlength : (morePrint fields).length + 2 ≤
          2 * (123 :: (fieldPrint (.protocolVersion, .number h.protocolVersion) ++
            (morePrint fields ++ [125]))).length + 1 := by
        simp only [List.length_cons, List.length_append]
        omega
      dsimp only [Option.map_some]
      rw [loadsText, hbrace, hvalue _ hlength]
      rfl

end Native
end FrigateXdna
