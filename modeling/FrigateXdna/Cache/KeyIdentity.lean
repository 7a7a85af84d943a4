import FrigateXdna.Cache.Keys
import FrigateXdna.Python.JsonText

/-!
# What a content key identifies

A key is the digest of a canonical text.  The text determines the value it was printed from
up to the order of keys in dictionaries, and the three kinds of keys digest dictionaries with
different keys, so two equal keys come from the same arguments of the same function, or from
a collision of the digest.

Main results:

- Theorem {lit}`utf8Decode_encode`: what was encoded is decoded.
- Theorem {lit}`canonical_eq_iff`: when two values have the same canonical text.
- Theorem {lit}`KeyArgs.key_eq_iff`: when two keys are equal.
-/

namespace FrigateXdna

open Python

/-! ## Encoding and decoding -/

theorem toNat_ofNat_of_lt {n : Nat} (h : n < 256) : (UInt8.ofNat n).toNat = n := by
  rw [UInt8.toNat_ofNat']
  omega

/-- A continuation byte is taken. -/
theorem utf8Go_continue {n : Nat} (hn : n < 256) {rest : Bytes} {need cp lo hi : Nat}
    (hlo : lo ≤ n) (hhi : n ≤ hi) :
    utf8Go (UInt8.ofNat n :: rest) (need + 1) cp lo hi =
      if need = 0 then (utf8Go rest 0 0 0 0).map ((cp * 64 + (n - 0x80)) :: ·)
      else utf8Go rest need (cp * 64 + (n - 0x80)) 0x80 0xBF := by
  rw [utf8Go, toNat_ofNat_of_lt hn, if_pos ⟨hlo, hhi⟩]

/-- A lead byte is taken. -/
theorem utf8Go_lead {n : Nat} (hn : n < 256) (hwide : 0x80 ≤ n) {need cp lo hi : Nat}
    (hlead : utf8Lead n = some (need, cp, lo, hi)) (rest : Bytes) :
    utf8Go (UInt8.ofNat n :: rest) 0 0 0 0 = utf8Go rest need cp lo hi := by
  rw [utf8Go, toNat_ofNat_of_lt hn, if_neg (by omega), hlead]

/-- The lead bytes of three-byte sequences. -/
theorem utf8Lead_three : ∀ k < 16, utf8Lead (0xE0 + k) =
    some (2, k, if k = 0 then 0xA0 else 0x80, if k = 13 then 0x9F else 0xBF) := by
  decide

/-- The lead bytes of four-byte sequences. -/
theorem utf8Lead_four : ∀ k < 5, utf8Lead (0xF0 + k) =
    some (3, k, if k = 0 then 0x90 else 0x80, if k = 4 then 0x8F else 0xBF) := by
  decide

/-- **One encoded character is decoded.** -/
theorem utf8Go_char {c : Nat} (hc : IsCodePoint c) {bytes : Bytes}
    (hbytes : utf8Char c = some bytes) (rest : Bytes) :
    utf8Go (bytes ++ rest) 0 0 0 0 = (utf8Go rest 0 0 0 0).map (c :: ·) := by
  have hc' : c < 0x110000 := hc
  unfold utf8Char at hbytes
  split_ifs at hbytes with h1 h2 hsurrogate h3
  · obtain rfl := Option.some.inj hbytes
    rw [List.singleton_append, utf8Go, toNat_ofNat_of_lt (by omega), if_pos h1]
  · obtain rfl := Option.some.inj hbytes
    have hlead : utf8Lead (0xC0 + c / 0x40) = some (1, c / 0x40, 0x80, 0xBF) := by
      unfold utf8Lead
      rw [if_pos (by omega), Nat.add_sub_cancel_left]
    have hvalue : c / 0x40 * 64 + (0x80 + c % 0x40 - 0x80) = c := by omega
    rw [List.cons_append, List.singleton_append, utf8Go_lead (by omega) (by omega) hlead,
      utf8Go_continue (by omega) (by omega) (by omega), if_pos rfl, hvalue]
  · obtain rfl := Option.some.inj hbytes
    have hlead := utf8Lead_three (c / 0x1000) (by omega)
    have hlo : (if c / 0x1000 = 0 then 0xA0 else 0x80) ≤ 0x80 + c / 0x40 % 0x40 := by
      split <;> omega
    have hhi : 0x80 + c / 0x40 % 0x40 ≤ (if c / 0x1000 = 13 then 0x9F else 0xBF) := by
      split <;> omega
    have hvalue : (c / 0x1000 * 64 + (0x80 + c / 0x40 % 0x40 - 0x80)) * 64 +
        (0x80 + c % 0x40 - 0x80) = c := by omega
    rw [List.cons_append, List.cons_append, List.singleton_append,
      utf8Go_lead (by omega) (by omega) hlead, utf8Go_continue (by omega) hlo hhi,
      if_neg (by decide), utf8Go_continue (by omega) (by omega) (by omega), if_pos rfl, hvalue]
  · obtain rfl := Option.some.inj hbytes
    have hlead := utf8Lead_four (c / 0x40000) (by omega)
    have hlo : (if c / 0x40000 = 0 then 0x90 else 0x80) ≤ 0x80 + c / 0x1000 % 0x40 := by
      split <;> omega
    have hhi : 0x80 + c / 0x1000 % 0x40 ≤ (if c / 0x40000 = 4 then 0x8F else 0xBF) := by
      split <;> omega
    have hvalue : ((c / 0x40000 * 64 + (0x80 + c / 0x1000 % 0x40 - 0x80)) * 64 +
        (0x80 + c / 0x40 % 0x40 - 0x80)) * 64 + (0x80 + c % 0x40 - 0x80) = c := by omega
    rw [List.cons_append, List.cons_append, List.cons_append, List.singleton_append,
      utf8Go_lead (by omega) (by omega) hlead, utf8Go_continue (by omega) hlo hhi,
      if_neg (by decide), utf8Go_continue (by omega) (by omega) (by omega), if_neg (by decide),
      utf8Go_continue (by omega) (by omega) (by omega), if_pos rfl, hvalue]

/-- Only text without surrogates is encoded. -/
theorem utf8Encode_scalar {s : PyStr} {bytes : Bytes} (h : utf8Encode s = .ok bytes) :
    ∀ c ∈ s, Scalar c := by
  induction s generalizing bytes with
  | nil => exact fun c hc => absurd hc List.not_mem_nil
  | cons c cs ih =>
      rw [utf8Encode] at h
      cases hchar : utf8Char c with
      | none => simp [hchar] at h
      | some first =>
          cases hrest : utf8Encode cs with
          | error e => simp [hchar, hrest] at h
          | ok others =>
              refine List.forall_mem_cons.mpr ⟨?_, ih hrest⟩
              unfold utf8Char at hchar
              unfold Scalar
              split_ifs at hchar <;> omega

/-- **What was encoded is decoded.** -/
theorem utf8Decode_encode {s : PyStr} (hs : ∀ c ∈ s, IsCodePoint c) {bytes : Bytes}
    (h : utf8Encode s = .ok bytes) : utf8Decode bytes = some s := by
  induction s generalizing bytes with
  | nil =>
      obtain rfl := Except.ok.inj h
      rfl
  | cons c cs ih =>
      rw [utf8Encode] at h
      cases hchar : utf8Char c with
      | none => simp [hchar] at h
      | some first =>
          cases hrest : utf8Encode cs with
          | error e => simp [hchar, hrest] at h
          | ok others =>
              rw [hchar, hrest] at h
              obtain rfl := Except.ok.inj h
              have htail := ih (fun d hd => hs d (List.mem_cons_of_mem c hd)) hrest
              rw [utf8Decode] at htail ⊢
              rw [utf8Go_char (hs c List.mem_cons_self) hchar, htail]
              rfl

/-! ## The canonical style -/

/-- A character of the canonical text is read. -/
theorem scanString_escapeRaw (c : Nat) (rest : PyStr) (hc : IsCodePoint c) :
    scanString (escapeRaw c ++ rest) = (scanString rest).map fun r => ([c] ++ r.1, r.2) := by
  unfold escapeRaw
  split
  · rename_i hascii
    rw [scanString_escapeChar hc, utf16Units, if_pos (by omega)]
  · exact scanString_plain (by omega) (by omega) (by omega) rest

/-- {lit}`json.dumps` with {lit}`ensure_ascii=False` and no blanks. -/
def rawStyle : JsonStyle where
  escape := escapeRaw
  units := fun c => [c]
  gap := 0
  hescape := fun c hc rest => scanString_escapeRaw c rest hc
  hunits := fun s _ => by rw [List.flatMap_singleton']

mutual

/-- {lit}`canonical` prints in the raw style. -/
theorem canonicalText_eq : (j : Json) → canonicalText j = rawStyle.print j
  | .null | .bool _ | .int _ | .float _ | .str _ => rfl
  | .arr items => by
      rw [canonicalText, canonicalItems_eq items, JsonStyle.print]
      rfl
  | .obj fields => by
      rw [canonicalText, canonicalFields_eq fields, foldr_insertField, JsonStyle.print]
      rfl

theorem canonicalItems_eq : (items : List Json) →
    canonicalItems items = rawStyle.printItems items
  | [] => rfl
  | j :: rest => by
      rw [canonicalItems, canonicalText_eq j, canonicalItems_eq rest, JsonStyle.printItems]

theorem canonicalFields_eq : (fields : List (PyStr × Json)) →
    canonicalFields fields = rawStyle.printFields fields
  | [] => rfl
  | (k, v) :: rest => by
      rw [canonicalFields, canonicalText_eq v, canonicalFields_eq rest, JsonStyle.printFields]

end

/-! ## What is in a printed text -/

/-- What holds of the texts and of the separator holds of the joined text. -/
theorem joinStr_forall {P : Nat → Prop} {sep : PyStr} (hsep : ∀ c ∈ sep, P c)
    {parts : List PyStr} (h : ∀ s ∈ parts, ∀ c ∈ s, P c) : ∀ c ∈ joinStr sep parts, P c := by
  induction parts with
  | nil => exact fun c hc => absurd hc List.not_mem_nil
  | cons s more ih =>
      have hs := h s List.mem_cons_self
      cases more with
      | nil => exact hs
      | cons t more =>
          have hmore := ih fun u hu => h u (List.mem_cons_of_mem s hu)
          rw [joinStr_cons sep (List.cons_ne_nil t more)]
          simp only [List.forall_mem_append]
          exact ⟨⟨hs, hsep⟩, hmore⟩

/-- The parts are in the joined text. -/
theorem mem_joinStr (sep : PyStr) {parts : List PyStr} {s : PyStr} (hs : s ∈ parts) {c : Nat}
    (hc : c ∈ s) : c ∈ joinStr sep parts := by
  induction parts with
  | nil => exact absurd hs List.not_mem_nil
  | cons t more ih =>
      cases more with
      | nil => exact List.mem_singleton.mp hs ▸ hc
      | cons u more =>
          rw [joinStr_cons sep (List.cons_ne_nil u more)]
          rcases List.mem_cons.mp hs with rfl | hs
          · exact List.mem_append_left _ (List.mem_append_left _ hc)
          · exact List.mem_append_right _ (ih hs)

theorem codePoint_of_plain {c : Nat} (h : IsPlain c) : IsCodePoint c := by
  have := h.2
  unfold IsCodePoint
  omega

/-- A canonical text consists of code points. -/
theorem print_codePoints {j : Json} (hj : j.WellFormed) :
    ∀ c ∈ rawStyle.print j, IsCodePoint c := by
  have hquote : ∀ s : PyStr, (∀ c ∈ s, IsCodePoint c) → ∀ c ∈ rawStyle.quote s, IsCodePoint c := by
    intro s hs
    simp only [JsonStyle.quote, List.forall_mem_append, List.forall_mem_cons]
    refine ⟨⟨by decide, fun c hc => ?_⟩, by decide, fun _ hc => absurd hc List.not_mem_nil⟩
    obtain ⟨e, he, hce⟩ := List.mem_flatMap.mp hc
    by_cases hascii : e < 127
    · have hraw : rawStyle.escape e = escapeChar e := if_pos hascii
      exact codePoint_of_plain (escapeChar_plain e c (hraw ▸ hce))
    · have hraw : rawStyle.escape e = [e] := if_neg hascii
      exact List.mem_singleton.mp (hraw ▸ hce) ▸ hs e he
  have hsep : ∀ d, IsPlain d → ∀ c ∈ rawStyle.separator d, IsCodePoint c := by
    intro d hd c hc
    exact List.mem_singleton.mp hc ▸ codePoint_of_plain hd
  induction hj with
  | null => exact fun c hc => codePoint_of_plain (dumps_plain .null c hc)
  | bool b => exact fun c hc => codePoint_of_plain (dumps_plain (.bool b) c hc)
  | int z => exact fun c hc => codePoint_of_plain (dumps_plain (.int z) c hc)
  | float _ => exact fun c hc => codePoint_of_plain (repr_plain _ c hc)
  | str hs => exact hquote _ hs
  | arr _ ih =>
      rw [JsonStyle.print_arr]
      simp only [List.forall_mem_append, List.forall_mem_cons]
      refine ⟨⟨by decide, joinStr_forall (hsep 44 (by decide)) fun s hs => ?_⟩, by decide,
        fun _ hc => absurd hc List.not_mem_nil⟩
      obtain ⟨j, hj, rfl⟩ := List.mem_map.mp hs
      exact ih j hj
  | obj _ htexts _ ih =>
      rw [JsonStyle.print_obj]
      simp only [List.forall_mem_append, List.forall_mem_cons]
      refine ⟨⟨by decide, joinStr_forall (hsep 44 (by decide)) fun s hs => ?_⟩, by decide,
        fun _ hc => absurd hc List.not_mem_nil⟩
      obtain ⟨f, hf, rfl⟩ := List.mem_map.mp hs
      rw [mem_sortFields] at hf
      simp only [JsonStyle.field, List.forall_mem_append]
      exact ⟨⟨hquote f.1 (htexts f hf), hsep 58 (by decide)⟩, ih f hf⟩

/-- A character that is not escaped stands in the text as it is. -/
theorem mem_print_of_text {j : Json} (hj : j.WellFormed) {s : PyStr} (hs : s ∈ j.texts) {c : Nat}
    (hc : c ∈ s) (hraw : 127 ≤ c) : c ∈ rawStyle.print j := by
  have hquote : ∀ t : PyStr, c ∈ t → c ∈ rawStyle.quote t := by
    intro t ht
    have hescape : rawStyle.escape c = [c] := if_neg (by omega)
    have hmem : c ∈ t.flatMap rawStyle.escape :=
      List.mem_flatMap.mpr ⟨c, ht, by rw [hescape]; exact List.mem_singleton_self c⟩
    exact List.mem_append_left _ (List.mem_cons_of_mem 34 hmem)
  induction hj with
  | null | bool _ | int _ | float _ => exact absurd hs List.not_mem_nil
  | str _ => exact hquote _ (List.mem_singleton.mp hs ▸ hc)
  | @arr items _ ih =>
      obtain ⟨j, hj, hs⟩ : ∃ j ∈ items, s ∈ j.texts := by
        by_contra hnone
        have hall : ∀ t ∈ itemsTexts items, t ≠ s :=
          forall_itemsTexts.mpr fun j hj t ht heq => hnone ⟨j, hj, heq ▸ ht⟩
        exact hall s hs rfl
      rw [JsonStyle.print_arr]
      exact List.mem_append_left _ (List.mem_cons_of_mem 91
        (mem_joinStr _ (List.mem_map_of_mem hj) (ih j hj hs)))
  | @obj fields _ _ _ ih =>
      obtain ⟨f, hf, hs⟩ : ∃ f ∈ fields, s = f.1 ∨ s ∈ f.2.texts := by
        by_contra hnone
        have hall : ∀ t ∈ fieldsTexts fields, t ≠ s :=
          forall_fieldsTexts.mpr fun f hf =>
            ⟨fun heq => hnone ⟨f, hf, Or.inl heq.symm⟩,
              fun t ht heq => hnone ⟨f, hf, Or.inr (heq ▸ ht)⟩⟩
        exact hall s hs rfl
      rw [JsonStyle.print_obj]
      refine List.mem_append_left _ (List.mem_cons_of_mem 123
        (mem_joinStr _ (List.mem_map_of_mem (mem_sortFields.mpr hf)) ?_))
      rcases hs with rfl | hs
      · exact List.mem_append_left _ (List.mem_append_left _ (hquote f.1 hc))
      · exact List.mem_append_right _ (ih f hf hs)

/-! ## The order of keys -/

section Order

variable {α : Type}

instance leStrTotal : Std.Total fun f g : PyStr × α => leStr f.1 g.1 = true :=
  ⟨fun f g => leStr_total f.1 g.1⟩

instance leStrTrans : IsTrans (PyStr × α) fun f g => leStr f.1 g.1 = true :=
  ⟨fun _ _ _ => leStr_trans⟩

/-- Sorting twice is sorting once. -/
theorem sortFields_sortFields (fields : List (PyStr × α)) :
    sortFields (sortFields fields) = sortFields fields :=
  (List.pairwise_insertionSort _ fields).insertionSort_eq

/-- Fields with the same distinct keys are told apart when they are sorted. -/
theorem sortFields_inj {f g : List (PyStr × α)} (hkeys : f.map Prod.fst = g.map Prod.fst)
    (hnodup : (f.map Prod.fst).Nodup) : sortFields f = sortFields g ↔ f = g := by
  refine ⟨fun h => ?_, fun h => by rw [h]⟩
  have hperm : f.Perm g :=
    ((sortFields_perm f).symm.trans (h ▸ List.Perm.refl _)).trans (sortFields_perm g)
  clear h
  induction f generalizing g with
  | nil => exact hperm.nil_eq
  | cons a f ih =>
      cases g with
      | nil => simp at hkeys
      | cons b g =>
          rw [List.map_cons, List.map_cons] at hkeys
          obtain ⟨hfst, hrest⟩ := List.cons.inj hkeys
          rw [List.map_cons, List.nodup_cons] at hnodup
          have hab : a = b := by
            rcases List.mem_cons.mp (hperm.mem_iff.mp List.mem_cons_self) with hab | hmem
            · exact hab
            · exact absurd (hrest ▸ List.mem_map_of_mem hmem) hnodup.1
          subst hab
          rw [ih hrest hnodup.2 hperm.cons_inv]

end Order

/-- **The order of keys does not show** in the text. -/
theorem print_sorted (st : JsonStyle) {j : Json} (hj : j.WellFormed) :
    st.print j.sorted = st.print j := by
  induction hj with
  | null | bool _ | int _ | float _ | str _ => rfl
  | arr _ ih =>
      rw [Json.sorted, JsonStyle.print_arr, JsonStyle.print_arr, sortedItems_eq, List.map_map]
      congr 3
      exact List.map_congr_left ih
  | obj _ _ _ ih =>
      rw [Json.sorted, JsonStyle.print_obj, JsonStyle.print_obj, sortFields_sortFields,
        sortedFields_eq, sortFields_map, List.map_map]
      congr 3
      refine List.map_congr_left fun f hf => ?_
      simp only [Function.comp, ih f (mem_sortFields.mp hf)]

/-! ## What the canonical text determines -/

/-- Text that was encoded reads back unchanged. -/
theorem reread_of_canonical {j : Json} (hj : j.WellFormed) {bytes : Bytes}
    (h : canonical j = .ok bytes) : j.reread = j.sorted := by
  rw [canonical, canonicalText_eq] at h
  have hscalar := utf8Encode_scalar h
  refine (reread_eq_sorted_iff hj).mpr fun s hs => ?_
  rw [← joinSurrogates_eq_self_iff]
  refine joinSurrogates_eq_self fun c hc => ?_
  by_cases hraw : 127 ≤ c
  · exact hscalar c (mem_print_of_text hj hs hc hraw)
  · exact Or.inl (by omega)

/-- **Two values have the same canonical text** exactly when they differ in the order of keys
at most. -/
theorem canonical_eq_iff {a b : Json} (ha : a.WellFormed) (hb : b.WellFormed)
    (hinta : a.IntsPrint) (hintb : b.IntsPrint) {x y : Bytes} (hx : canonical a = .ok x)
    (hy : canonical b = .ok y) : x = y ↔ a.sorted = b.sorted := by
  have hdecodea := utf8Decode_encode (print_codePoints ha)
    (by rw [← canonicalText_eq]; exact hx)
  have hdecodeb := utf8Decode_encode (print_codePoints hb)
    (by rw [← canonicalText_eq]; exact hy)
  constructor
  · rintro rfl
    have htext : rawStyle.print a = rawStyle.print b :=
      Option.some.inj (hdecodea.symm.trans hdecodeb)
    have hloada := rawStyle.loadsText_print ha hinta (max a.depth b.depth)
    have hloadb := rawStyle.loadsText_print hb hintb (max a.depth b.depth)
    rw [if_pos (Nat.le_max_left _ _)] at hloada
    rw [if_pos (Nat.le_max_right _ _), ← htext, hloada] at hloadb
    rw [← reread_of_canonical ha hx, ← reread_of_canonical hb hy]
    exact Except.ok.inj hloadb
  · intro hsorted
    have htext : canonicalText a = canonicalText b := by
      rw [canonicalText_eq, canonicalText_eq, ← print_sorted rawStyle ha, hsorted,
        print_sorted rawStyle hb]
    rw [canonical, htext] at hx
    rw [canonical, hx] at hy
    exact Except.ok.inj hy

/-- A contract with its fields in one order. -/
def orderedContract : Json :=
  .obj [(py "shape", .arr [.int 1, .int 640]), (py "labels", .arr [.str (py "person")])]

/-- The same contract with its fields in the other order. -/
def reorderedContract : Json :=
  .obj [(py "labels", .arr [.str (py "person")]), (py "shape", .arr [.int 1, .int 640])]

theorem orderedContract_wellFormed :
    orderedContract.WellFormed ∧ reorderedContract.WellFormed := by
  have hshape : (Json.arr [.int 1, .int 640]).WellFormed := by
    refine .arr ?_
    simp only [List.forall_mem_cons, List.not_mem_nil, false_implies, implies_true, and_true]
    exact ⟨.int 1, .int 640⟩
  have hlabels : (Json.arr [.str (py "person")]).WellFormed := by
    refine .arr ?_
    simp only [List.forall_mem_cons, List.not_mem_nil, false_implies, implies_true, and_true]
    exact .str (by decide)
  constructor
  · refine .obj (by decide) (by decide) ?_
    simp only [List.forall_mem_cons, List.not_mem_nil, false_implies, implies_true, and_true]
    exact ⟨hshape, hlabels⟩
  · refine .obj (by decide) (by decide) ?_
    simp only [List.forall_mem_cons, List.not_mem_nil, false_implies, implies_true, and_true]
    exact ⟨hlabels, hshape⟩

/-- The bytes of the canonical text of the sample contract. -/
def orderedContractBytes : Bytes :=
  (py "\x7b\"labels\":[\"person\"],\"shape\":[1,640]\x7d").map UInt8.ofNat

theorem canonical_orderedContract :
    canonical orderedContract = .ok orderedContractBytes ∧
      canonical reorderedContract = .ok orderedContractBytes := by
  constructor <;> rfl

/-- The two contracts have one canonical text, as they have one sorted form. -/
theorem canonical_eq_iff_reordered :
    ∃ x y, canonical orderedContract = .ok x ∧ canonical reorderedContract = .ok y ∧
      (x = y ↔ orderedContract.sorted = reorderedContract.sorted) :=
  ⟨_, _, canonical_orderedContract.1, canonical_orderedContract.2,
    canonical_eq_iff orderedContract_wellFormed.1 orderedContract_wellFormed.2 (by decide)
      (by decide) canonical_orderedContract.1 canonical_orderedContract.2⟩

/-! ## Keys -/

/-- The arguments of {lit}`compile_key`, {lit}`serving_digest` or {lit}`validation_key`. -/
inductive KeyArgs
  | compile (sourceSha256 compilerPayloadSha256 recipeId recipeConfigSha256 targetProfile
      artifactCompatibilityId : PyStr) (compileInput : Json)
  | serving (compileKeyHex : PyStr) (contract : Json)
  | validation (artifactSha256 servingHex : PyStr) (runtimeProfile : Json) (suiteVersion : PyStr)

namespace KeyArgs

/-- The fields of the dictionary that is digested. -/
def fields : KeyArgs → List (PyStr × Json)
  | .compile source payload recipe config target compat compileInput =>
      [(py "schema", .int 1), (py "source_sha256", .str source),
        (py "compiler_payload_sha256", .str payload), (py "recipe_id", .str recipe),
        (py "recipe_config_sha256", .str config), (py "target_profile", .str target),
        (py "artifact_compatibility_id", .str compat), (py "compile_input", compileInput)]
  | .serving compileKeyHex contract =>
      [(py "schema", .int 1), (py "compile_key", .str compileKeyHex),
        (py "contract", contract)]
  | .validation artifact servingHex profile suite =>
      [(py "schema", .int 1), (py "artifact_sha256", .str artifact),
        (py "serving_digest", .str servingHex), (py "runtime_profile", profile),
        (py "suite_version", .str suite)]

/-- The dictionary that is digested. -/
def input (args : KeyArgs) : Json :=
  .obj args.fields

/-- {lit}`compile_key`, {lit}`serving_digest` and {lit}`validation_key`. -/
def key (sha256 : Bytes → PyStr) (args : KeyArgs) : Except PyExc PyStr :=
  (canonical args.input).map sha256

/-- The arguments with the keys of their dictionaries in order. -/
def sorted : KeyArgs → KeyArgs
  | .compile source payload recipe config target compat compileInput =>
      .compile source payload recipe config target compat compileInput.sorted
  | .serving compileKeyHex contract => .serving compileKeyHex contract.sorted
  | .validation artifact servingHex profile suite =>
      .validation artifact servingHex profile.sorted suite

/-- The texts among the arguments. -/
def texts : KeyArgs → List PyStr
  | .compile source payload recipe config target compat _ =>
      [source, payload, recipe, config, target, compat]
  | .serving compileKeyHex _ => [compileKeyHex]
  | .validation artifact servingHex _ suite => [artifact, servingHex, suite]

/-- The dictionary among the arguments. -/
def value : KeyArgs → Json
  | .compile _ _ _ _ _ _ compileInput => compileInput
  | .serving _ contract => contract
  | .validation _ _ profile _ => profile

/-- Arguments that Python can pass, with integers that it can print. -/
structure WellFormed (args : KeyArgs) : Prop where
  texts : ∀ s ∈ args.texts, ∀ c ∈ s, IsCodePoint c
  value : args.value.WellFormed
  ints : args.value.IntsPrint

/-- The key of the pinned recipe is a compile key. -/
theorem compileKey_eq (sha256 : Bytes → PyStr) (sourceSha256 : PyStr) (geometry : List Json) :
    compileKey sha256 sourceSha256 geometry =
      (KeyArgs.compile sourceSha256 compilerPayloadSha256 recipeId recipeConfigSha256
        targetProfile artifactCompatId
        (.obj [(py "shape", .arr geometry), (py "dtype", .str (py "float32"))])).key sha256 :=
  rfl

/-- The identity of what is served is a serving key. -/
theorem servingDigest_eq (sha256 : Bytes → PyStr) (compileKeyHex : PyStr) (contract : Json) :
    servingDigest sha256 compileKeyHex contract =
      (KeyArgs.serving compileKeyHex contract).key sha256 :=
  rfl

/-- The keys of the digested dictionary are distinct and printable, whatever the arguments
are. -/
theorem fields_keys (args : KeyArgs) :
    (args.fields.map Prod.fst).Nodup ∧ ∀ k ∈ args.fields.map Prod.fst, ∀ c ∈ k, IsPlain c := by
  cases args with
  | compile =>
      exact (by decide : [py "schema", py "source_sha256", py "compiler_payload_sha256",
        py "recipe_id", py "recipe_config_sha256", py "target_profile",
        py "artifact_compatibility_id", py "compile_input"].Nodup ∧ ∀ k ∈ [py "schema",
          py "source_sha256", py "compiler_payload_sha256", py "recipe_id",
          py "recipe_config_sha256", py "target_profile", py "artifact_compatibility_id",
          py "compile_input"], ∀ c ∈ k, IsPlain c)
  | serving =>
      exact (by decide : [py "schema", py "compile_key", py "contract"].Nodup ∧
        ∀ k ∈ [py "schema", py "compile_key", py "contract"], ∀ c ∈ k, IsPlain c)
  | validation =>
      exact (by decide : [py "schema", py "artifact_sha256", py "serving_digest",
        py "runtime_profile", py "suite_version"].Nodup ∧ ∀ k ∈ [py "schema",
          py "artifact_sha256", py "serving_digest", py "runtime_profile",
          py "suite_version"], ∀ c ∈ k, IsPlain c)

/-- A value of the digested dictionary is the schema number, a text or the dictionary among
the arguments. -/
theorem mem_fields {args : KeyArgs} {f : PyStr × Json} (h : f ∈ args.fields) :
    f.2 = .int 1 ∨ (∃ s ∈ args.texts, f.2 = .str s) ∨ f.2 = args.value := by
  cases args with
  | compile source payload recipe config target compat compileInput =>
      simp only [fields, List.mem_cons, List.not_mem_nil, or_false] at h
      rcases h with rfl | rfl | rfl | rfl | rfl | rfl | rfl | rfl <;> simp [texts, value]
  | serving compileKeyHex contract =>
      simp only [fields, List.mem_cons, List.not_mem_nil, or_false] at h
      rcases h with rfl | rfl | rfl <;> simp [texts, value]
  | validation artifact servingHex profile suite =>
      simp only [fields, List.mem_cons, List.not_mem_nil, or_false] at h
      rcases h with rfl | rfl | rfl | rfl | rfl <;> simp [texts, value]

theorem input_wellFormed {args : KeyArgs} (h : args.WellFormed) : args.input.WellFormed := by
  obtain ⟨hnodup, hplain⟩ := args.fields_keys
  refine .obj hnodup (fun f hf c hc => ?_) fun f hf => ?_
  · exact codePoint_of_plain (hplain f.1 (List.mem_map_of_mem hf) c hc)
  · rcases mem_fields hf with heq | ⟨s, hs, heq⟩ | heq
    · exact heq ▸ .int 1
    · exact heq ▸ .str (h.texts s hs)
    · exact heq ▸ h.value

theorem input_intsPrint {args : KeyArgs} (h : args.WellFormed) : args.input.IntsPrint := by
  have hone : (natDigits (1 : Int).natAbs).length ≤ maxIntDigits := by decide
  rw [Json.IntsPrint, input, Json.ints, forall_fieldsInts]
  intro f hf
  rcases mem_fields hf with heq | ⟨s, hs, heq⟩ | heq
  · rw [heq]
    exact fun z hz => List.mem_singleton.mp hz ▸ hone
  · rw [heq]
    exact fun z hz => absurd hz List.not_mem_nil
  · rw [heq]
    exact h.ints

/-- Sorted dictionaries are equal when the arguments are, up to order, and only then. -/
theorem input_sorted_eq_iff (p q : KeyArgs) :
    p.input.sorted = q.input.sorted ↔ p.sorted = q.sorted := by
  have hkeys : ∀ fields : List (PyStr × Json),
      (sortedFields fields).map Prod.fst = fields.map Prod.fst := by
    intro fields
    rw [sortedFields_eq, List.map_map]
    rfl
  have hsame : p.fields.map Prod.fst = q.fields.map Prod.fst →
      (p.input.sorted = q.input.sorted ↔ sortedFields p.fields = sortedFields q.fields) := by
    intro heq
    rw [input, input, Json.sorted, Json.sorted, Json.obj.injEq]
    exact sortFields_inj (by rw [hkeys, hkeys, heq]) (by rw [hkeys]; exact p.fields_keys.1)
  have hdifferent : p.input.sorted = q.input.sorted → p.fields.length = q.fields.length := by
    intro heq
    rw [input, input, Json.sorted, Json.sorted, Json.obj.injEq] at heq
    have hlen := congrArg List.length heq
    simpa [sortFields, sortedFields_eq] using hlen
  cases p <;> cases q
  case compile.compile =>
    rw [hsame rfl]
    simp [fields, sortedFields, Json.sorted, sorted]
  case serving.serving =>
    rw [hsame rfl]
    simp [fields, sortedFields, Json.sorted, sorted]
  case validation.validation =>
    rw [hsame rfl]
    simp [fields, sortedFields, Json.sorted, sorted]
  all_goals
    simp only [sorted, reduceCtorEq, iff_false]
    exact fun heq => absurd (hdifferent heq) (by simp [fields])

/-- **Two keys are equal** when they come from the same arguments of the same function, up to
the order of keys in dictionaries, or from a collision of the digest. -/
theorem key_eq_iff (sha256 : Bytes → PyStr) {p q : KeyArgs} (hp : p.WellFormed)
    (hq : q.WellFormed) {d e : PyStr} (hd : p.key sha256 = .ok d) (he : q.key sha256 = .ok e) :
    d = e ↔ p.sorted = q.sorted ∨
      ∃ x y, canonical p.input = .ok x ∧ canonical q.input = .ok y ∧ x ≠ y ∧
        sha256 x = sha256 y := by
  unfold key at hd he
  cases hx : canonical p.input with
  | error exc => simp [hx, Except.map] at hd
  | ok x =>
      cases hy : canonical q.input with
      | error exc => simp [hy, Except.map] at he
      | ok y =>
          have hsame := canonical_eq_iff (input_wellFormed hp) (input_wellFormed hq)
            (input_intsPrint hp) (input_intsPrint hq) hx hy
          rw [input_sorted_eq_iff] at hsame
          rw [hx] at hd
          rw [hy] at he
          obtain rfl := Except.ok.inj hd
          obtain rfl := Except.ok.inj he
          constructor
          · intro heq
            by_cases hxy : x = y
            · exact Or.inl (hsame.mp hxy)
            · exact Or.inr ⟨x, y, rfl, rfl, hxy, heq⟩
          · rintro (hsorted | ⟨x', y', hx', hy', -, heq⟩)
            · rw [hsame.mpr hsorted]
            · obtain rfl := Except.ok.inj hx'
              obtain rfl := Except.ok.inj hy'
              exact heq

/-- The key of the sample contract under a digest that does nothing. -/
theorem key_eq_iff_reordered :
    ∃ d, (KeyArgs.serving (py "k") orderedContract).key (·.map UInt8.toNat) = .ok d ∧
      (KeyArgs.serving (py "k") reorderedContract).key (·.map UInt8.toNat) = .ok d ∧
      (d = d ↔ (KeyArgs.serving (py "k") orderedContract).sorted =
          (KeyArgs.serving (py "k") reorderedContract).sorted ∨
        ∃ x y, canonical (KeyArgs.serving (py "k") orderedContract).input = .ok x ∧
          canonical (KeyArgs.serving (py "k") reorderedContract).input = .ok y ∧ x ≠ y ∧
          x.map UInt8.toNat = y.map UInt8.toNat) := by
  have htext : ∀ s ∈ [py "k"], ∀ c ∈ s, IsCodePoint c := by decide
  have hfirst : (KeyArgs.serving (py "k") orderedContract).key (·.map UInt8.toNat) =
      .ok (py "\x7b\"compile_key\":\"k\",\"contract\":" ++ orderedContractBytes.map UInt8.toNat ++
        py ",\"schema\":1\x7d") := rfl
  have hsecond : (KeyArgs.serving (py "k") reorderedContract).key (·.map UInt8.toNat) =
      .ok (py "\x7b\"compile_key\":\"k\",\"contract\":" ++ orderedContractBytes.map UInt8.toNat ++
        py ",\"schema\":1\x7d") := rfl
  have hp : (KeyArgs.serving (py "k") orderedContract).WellFormed :=
    ⟨htext, orderedContract_wellFormed.1, by decide⟩
  have hq : (KeyArgs.serving (py "k") reorderedContract).WellFormed :=
    ⟨htext, orderedContract_wellFormed.2, by decide⟩
  exact ⟨_, hfirst, hsecond, key_eq_iff (·.map UInt8.toNat) hp hq hfirst hsecond⟩

end KeyArgs

end FrigateXdna
