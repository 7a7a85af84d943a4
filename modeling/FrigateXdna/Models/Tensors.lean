import Mathlib.Tactic.Linarith
import Mathlib.Tactic.Ring
import Mathlib.Tactic.Zify
import FrigateXdna.Cache.Keys
import FrigateXdna.Models.Servable

/-!
# Tensor checks in two languages

An inference tensor is checked by {lit}`validate_tensor` of {lit}`models/contracts.py`, by
{lit}`validate_tensor_request` of {lit}`runtime/ipc.py`, and by the worker, with
{lit}`validate_tensor_spec` and then {lit}`validate_finite`.

Main results:

- Theorem {lit}`formed_lt`: the worker's product of the dimensions stays far below 64 bits.
- Theorem {lit}`validateTensor_agrees`: the first check accepts what the worker accepts.
- Theorem {lit}`tensorRequest_taken_iff`: which tensors that pass the second check pass the
  worker's.
-/

namespace FrigateXdna
namespace Models

open Python Native

/-! ## Numbers in single precision -/

/-- The bits of a {lit}`float` in little-endian order. -/
def word (b : Bytes) : Nat :=
  b.foldr (fun byte rest => byte.toNat + 256 * rest) 0

/-- {lit}`isfinite` on the bits of a {lit}`float`: the exponent is not all ones. -/
def finiteWord (w : Nat) : Bool :=
  w / 2 ^ 23 % 256 != 255

/-- The bits of the numbers of a payload. -/
def words (payload : Bytes) : List Nat :=
  (List.range (payload.length / 4)).map fun i => word ((payload.drop (4 * i)).take 4)

/-- An arithmetic whose numbers are read from bytes as {lit}`float`, as far as
{lit}`std::isfinite` can tell. -/
def ReadsFloat {F : Type} (A : Arith F) : Prop :=
  ∀ b : Bytes, b.length = 4 → A.finite (A.ofBytes b) = finiteWord (word b)

/-! ## The check of the decoder -/

/-- {lit}`16 * 1024 * 1024`. -/
def tensorBound : Int :=
  16 * 1024 * 1024

/-- The loop of {lit}`validate_tensor` over the dimensions. -/
def tensorCount : List Int → Int → Except PyExc Int
  | [], n => .ok n
  | dim :: rest, n =>
      if dim ≤ 0 ∨ 4096 < dim then .error .valueError
      else if tensorBound < n * dim * 4 then .error .valueError
      else tensorCount rest (n * dim)

/-- {lit}`validate_tensor`: the numbers of the tensor. -/
def validateTensor (payload : Bytes) (shape : List Int) (dtypeName : PyStr) :
    Except PyExc (List Nat) :=
  if dtypeName ≠ py "float32" then .error .valueError
  else if shape.length ≠ 4 ∨ shape[0]? ≠ some 1 ∨ shape[1]? ≠ some 3 then .error .valueError
  else
    match tensorCount shape 1 with
    | .error e => .error e
    | .ok n =>
        if (payload.length : Int) ≠ n * 4 then .error .valueError
        else if (words payload).all finiteWord then .ok (words payload)
        else .error .valueError

/-! ## The check of the supervisor -/

/-- {lit}`d` as an integer, if {lit}`isinstance(d, int)`. -/
def intValue : Json → Option Int
  | .int z => some z
  | .bool b => some (if b then 1 else 0)
  | _ => none

/-- {lit}`a == b` for floats. -/
def eqFloat : PyFloat → PyFloat → Bool
  | .inf a, .inf b => a == b
  | .finite a m e, .finite b n f =>
      (if a then -(m : Int) else m) * 2 ^ (e - min e f).toNat ==
        (if b then -(n : Int) else n) * 2 ^ (f - min e f).toNat
  | _, _ => false

/-- {lit}`a == b` for numbers. -/
def eqNumber (a b : Json) : Bool :=
  match a, b with
  | .float x, .float y => eqFloat x y
  | .float x, b => (intValue b).any x.eqInt
  | a, .float y => (intValue a).any y.eqInt
  | a, b => (intValue a).any fun x => intValue b == some x

mutual

/-- {lit}`a == b`. -/
def eqJson : Json → Json → Bool
  | .null, .null => true
  | .str s, .str t => s == t
  | .arr items, .arr others => eqItems items others
  | .obj fields, .obj others => fields.length == others.length && eqFields fields others
  | .bool b, other => eqNumber (.bool b) other
  | .int z, other => eqNumber (.int z) other
  | .float x, other => eqNumber (.float x) other
  | _, _ => false

/-- Equality of two lists. -/
def eqItems : List Json → List Json → Bool
  | [], [] => true
  | a :: rest, b :: others => eqJson a b && eqItems rest others
  | _, _ => false

/-- Whether every field of a dictionary stands in another. -/
def eqFields : List (PyStr × Json) → List (PyStr × Json) → Bool
  | [], _ => true
  | (k, v) :: rest, others =>
      (match lookupField k others with
        | none => false
        | some w => eqJson v w) && eqFields rest others

end

/-- The loop of {lit}`validate_tensor_request` over the dimensions. -/
def requestCount : List Json → Int → Option Int
  | [], elems => some elems
  | d :: rest, elems =>
      match intValue d with
      | none => none
      | some d => if d ≤ 0 ∨ 2048 < d then none else requestCount rest (elems * d)

/-- The numbers that the sampled check looks at: at most those of the first 4096 bytes. -/
def sampledWords (payload : Bytes) : List Nat :=
  (List.range ((min payload.length 4096 + 3) / 4)).map fun i =>
    word ((payload.drop (4 * i)).take 4)

/-- {lit}`validate_tensor_request` on the shape and the dtype of a header: the error, if there
is one. -/
def validateTensorRequest (shape dtype : Json) (payload : Bytes) : Option PyStr :=
  match shape with
  | .arr [batch, channels, height, width] =>
      if !batch.eqInt 1 || !channels.eqInt 3 then some (py "bad batch/channels")
      else if !eqJson height width then some (py "non-square")
      else if !dtype.eqStr (py "float32") then some (py "bad dtype")
      else
        match requestCount [batch, channels, height, width] 1 with
        | none => some (py "bad dim")
        | some elems =>
            if elems * 4 ≠ payload.length then
              some (py "byte count mismatch " ++ natDigits payload.length ++ py " vs " ++
                intRepr (elems * 4))
            else if (sampledWords payload).all finiteWord then none
            else some (py "non-finite")
  | _ => some (py "bad rank")

/-- The dimensions of a request as integers.  A bool counts as its Python integer, not as the
word that a JSON header would spell. -/
def requestShape : Json → List Int
  | .arr items => items.filterMap intValue
  | _ => []

/-- The bytes of a text. -/
def textBytes : Json → Bytes
  | .str s => (utf8Encode s).toOption.getD []
  | _ => []

/-- The tensor of a request as the worker checks it. -/
def requestSpec (shape dtype : Json) : TensorSpec where
  shape := requestShape shape
  dtype := textBytes dtype

/-- Whether the worker accepts a tensor. -/
def Taken {F : Type} (A : Arith F) (spec : TensorSpec) (payload : Bytes) : Prop :=
  validateTensorSpec spec payload.length = none ∧ validateFinite A (aligned A payload) = true

/-! ## The worker's product -/

/-- The products that the worker's loop forms. -/
def formed : List Int → Nat → List Nat
  | [], _ => []
  | d :: rest, elems =>
      if elems > maxTensorBytes / 4 then []
      else elems * d.toNat :: formed rest (elems * d.toNat)

/-- **The products stay far below 64 bits**, when every dimension has passed its check. -/
theorem formed_lt {shape : List Int} (h : ∀ d ∈ shape, 0 < d ∧ d ≤ 4096) (elems : Nat) :
    ∀ p ∈ formed shape elems, p * 4 < 2 ^ 64 := by
  induction shape generalizing elems with
  | nil => simp [formed]
  | cons d rest ih =>
      rw [formed]
      split_ifs with hlarge
      · simp
      · have hmax : maxTensorBytes / 4 = 4194304 := rfl
        have hd : d.toNat ≤ 4096 := by
          have := (h d List.mem_cons_self).2
          omega
        have hprod : elems * d.toNat ≤ 4194304 * 4096 :=
          Nat.mul_le_mul (by omega) hd
        intro p hp
        rcases List.mem_cons.mp hp with rfl | hrest
        · omega
        · exact ih (fun d hd => h d (List.mem_cons_of_mem _ hd)) _ p hrest

/-! ## Images -/

/-- A shape that both checks accept: one image with three channels. -/
structure ImageShape (shape : List Int) (bytes : Nat) (height width : Int) : Prop where
  shape_eq : shape = [1, 3, height, width]
  height_le : 0 < height ∧ height ≤ 4096
  width_le : 0 < width ∧ width ≤ 4096
  bytes_eq : (bytes : Int) = 12 * (height * width)
  bytes_le : bytes ≤ maxTensorBytes

/-- A list of four with two known entries. -/
theorem eq_image {shape : List Int}
    (h : ¬ (shape.length ≠ 4 ∨ shape[0]? ≠ some 1 ∨ shape[1]? ≠ some 3)) :
    ∃ height width, shape = [1, 3, height, width] := by
  obtain ⟨hrank, hbatch, hchannels⟩ : shape.length = 4 ∧ shape[0]? = some 1 ∧
      shape[1]? = some 3 := by
    push Not at h
    exact h
  match shape, hrank with
  | [a, b, c, d], _ =>
      obtain rfl : a = 1 := by simpa using hbatch
      obtain rfl : b = 3 := by simpa using hchannels
      exact ⟨c, d, rfl⟩

/-- What the worker accepts. -/
theorem validateTensorSpec_eq_none_iff {spec : TensorSpec} {bytes : Nat} :
    validateTensorSpec spec bytes = none ↔
      spec.dtype = cstr "float32" ∧ ∃ height width, ImageShape spec.shape bytes height width := by
  constructor
  · intro h
    unfold validateTensorSpec at h
    split_ifs at h with hdtype hrank hlead hdims
    obtain ⟨height, width, hshape⟩ := eq_image (h := by tauto)
    rw [hshape] at hdims h
    simp only [List.any_cons, List.any_nil, Bool.or_false, Bool.or_eq_true, decide_eq_true_eq,
      not_or, not_le, not_lt] at hdims
    obtain ⟨-, -, hheight, hwidth⟩ := hdims
    rw [elementCount_image hheight] at h
    dsimp only at h
    split_ifs at h with hlarge hbytes
    refine ⟨not_not.mp hdtype, height, width, hshape, hheight, hwidth, ?_, by omega⟩
    have hbytes := not_not.mp hbytes
    rw [hbytes]
    push_cast
    rw [Int.toNat_of_nonneg hheight.1.le, Int.toNat_of_nonneg hwidth.1.le]
    ring
  · rintro ⟨hdtype, height, width, h⟩
    have hbytes : bytes = tensorBytes [1, 3, height, width] := by
      have := h.bytes_eq
      rw [tensorBytes_image]
      zify
      rw [Int.toNat_of_nonneg h.height_le.1.le, Int.toNat_of_nonneg h.width_le.1.le]
      exact this
    obtain ⟨shape, dtype⟩ := spec
    obtain rfl : dtype = cstr "float32" := hdtype
    obtain rfl : shape = [1, 3, height, width] := h.shape_eq
    rw [hbytes]
    exact (validateTensorSpec_image h.height_le h.width_le).mpr (hbytes ▸ h.bytes_le)

/-- The element count of an image. -/
theorem tensorCount_image {height width n : Int} :
    tensorCount [1, 3, height, width] 1 = .ok n ↔
      (0 < height ∧ height ≤ 4096) ∧ (0 < width ∧ width ≤ 4096) ∧ n = 3 * (height * width) ∧
        n * 4 ≤ tensorBound := by
  have hlead : tensorCount [1, 3, height, width] 1 = tensorCount [height, width] 3 := by
    rw [tensorCount, if_neg (by decide), if_neg (by decide), tensorCount, if_neg (by decide),
      if_neg (by decide)]
    rfl
  have hbound : tensorBound = 16777216 := rfl
  rw [hlead, tensorCount, tensorCount, tensorCount]
  constructor
  · intro h
    by_cases hheight : height ≤ 0 ∨ 4096 < height
    · rw [if_pos hheight] at h
      contradiction
    · rw [if_neg hheight] at h
      by_cases hrows : tensorBound < 3 * height * 4
      · rw [if_pos hrows] at h
        contradiction
      · rw [if_neg hrows] at h
        by_cases hwidth : width ≤ 0 ∨ 4096 < width
        · rw [if_pos hwidth] at h
          contradiction
        · rw [if_neg hwidth] at h
          by_cases hlarge : tensorBound < 3 * height * width * 4
          · rw [if_pos hlarge] at h
            contradiction
          · rw [if_neg hlarge] at h
            obtain rfl := Except.ok.inj h
            exact ⟨by omega, by omega, by ring, not_lt.mp hlarge⟩
  · rintro ⟨hheight, hwidth, rfl, hle⟩
    have hgrow : height ≤ height * width := by nlinarith
    rw [if_neg (by omega), if_neg (by omega), if_neg (by omega),
      if_neg (by rw [mul_assoc 3 height width]; omega), mul_assoc 3 height width]

/-- What the check of the decoder accepts. -/
theorem validateTensor_eq_ok_iff {payload : Bytes} {shape : List Int} {dtypeName : PyStr} :
    (∃ numbers, validateTensor payload shape dtypeName = .ok numbers) ↔
      dtypeName = py "float32" ∧ (words payload).all finiteWord = true ∧
        ∃ height width, ImageShape shape payload.length height width := by
  have hmax : (maxTensorBytes : Int) = tensorBound := rfl
  unfold validateTensor
  constructor
  · rintro ⟨numbers, h⟩
    by_cases hdtype : dtypeName ≠ py "float32"
    · rw [if_pos hdtype] at h
      contradiction
    · rw [if_neg hdtype] at h
      by_cases hlead : shape.length ≠ 4 ∨ shape[0]? ≠ some 1 ∨ shape[1]? ≠ some 3
      · rw [if_pos hlead] at h
        contradiction
      · rw [if_neg hlead] at h
        obtain ⟨height, width, rfl⟩ := eq_image hlead
        cases hcount : tensorCount [1, 3, height, width] 1 with
        | error e =>
            rw [hcount] at h
            contradiction
        | ok n =>
            rw [hcount] at h
            obtain ⟨hheight, hwidth, rfl, hle⟩ := tensorCount_image.mp hcount
            dsimp only at h
            split_ifs at h with hbytes hfinite
            have hbytes := not_not.mp hbytes
            refine ⟨not_not.mp hdtype, hfinite, height, width, rfl, hheight, hwidth, ?_, ?_⟩
            · rw [hbytes]
              ring
            · omega
  · rintro ⟨rfl, hfinite, height, width, rfl, hheight, hwidth, hbytes, hle⟩
    have hcount := tensorCount_image.mpr
      ⟨hheight, hwidth, rfl, show 3 * (height * width) * 4 ≤ tensorBound by omega⟩
    refine ⟨words payload, ?_⟩
    rw [if_neg (not_not.mpr rfl), if_neg (by simp), hcount]
    dsimp only
    rw [if_neg (by omega), if_pos hfinite]

/-! ## The numbers of a payload -/

/-- The first number of a payload. -/
theorem words_append {b rest : Bytes} (h : b.length = 4) :
    words (b ++ rest) = word b :: words rest := by
  have hcount : (b ++ rest).length / 4 = rest.length / 4 + 1 := by
    rw [List.length_append]
    omega
  unfold words
  rw [hcount, List.range_succ_eq_map, List.map_cons, List.map_map]
  congr 1
  · rw [Nat.mul_zero, List.drop_zero, List.take_append_of_le_length (by omega),
      List.take_of_length_le (by omega)]
  · refine List.map_congr_left fun i _ => ?_
    have hdrop : 4 * (i + 1) = b.length + 4 * i := by omega
    rw [Function.comp_apply, Nat.succ_eq_add_one, hdrop, List.drop_length_add_append]

/-- Zeros at the start of a payload. -/
theorem words_zeros (k : Nat) (rest : Bytes) :
    words (List.replicate (4 * k) 0 ++ rest) = List.replicate k 0 ++ words rest := by
  induction k with
  | zero => rfl
  | succ k ih =>
      have hsplit : List.replicate (4 * (k + 1)) (0 : UInt8) =
          List.replicate 4 0 ++ List.replicate (4 * k) 0 := by
        rw [List.replicate_append_replicate]
        congr 1
        omega
      rw [hsplit, List.append_assoc, words_append rfl, ih]
      rfl

/-- The worker finds the numbers finite that the other checks find finite. -/
theorem validateFinite_aligned {F : Type} {A : Arith F} (hA : ReadsFloat A) (payload : Bytes) :
    validateFinite A (aligned A payload) = (words payload).all finiteWord := by
  unfold validateFinite aligned words
  rw [List.all_map, List.all_map, Bool.eq_iff_iff, List.all_eq_true, List.all_eq_true]
  refine forall₂_congr fun i hi => ?_
  have hi : i < payload.length / 4 := List.mem_range.mp hi
  have hlen : ((payload.drop (4 * i)).take 4).length = 4 := by
    rw [List.length_take, List.length_drop]
    omega
  rw [Function.comp_apply, Function.comp_apply, hA _ hlen]

/-- A text whose bytes are ASCII consists of them. -/
theorem utf8Encode_ascii {s : PyStr} {b : Bytes} (h : utf8Encode s = .ok b)
    (hascii : ∀ x ∈ b, x.toNat < 128) : s = b.map UInt8.toNat := by
  induction s generalizing b with
  | nil =>
      obtain rfl := Except.ok.inj h
      rfl
  | cons c rest ih =>
      rw [utf8Encode] at h
      cases hc : utf8Char c with
      | none =>
          rw [hc] at h
          contradiction
      | some bytes =>
          cases hrest : utf8Encode rest with
          | error e =>
              rw [hc, hrest] at h
              contradiction
          | ok others =>
              rw [hc, hrest] at h
              obtain rfl := Except.ok.inj h
              have htail := ih hrest fun x hx => hascii x (List.mem_append_right _ hx)
              have hhead : ∀ x ∈ bytes, x.toNat < 128 := fun x hx =>
                hascii x (List.mem_append_left _ hx)
              have hlow : ∀ n, ¬ (UInt8.ofNat (0x80 + n % 0x40)).toNat < 128 := by
                intro n
                rw [UInt8.toNat_ofNat']
                omega
              unfold utf8Char at hc
              split_ifs at hc with h1 h2 h3 h4
              · obtain rfl := Option.some.inj hc
                rw [List.map_append, ← htail]
                simp [UInt8.toNat_ofNat', Nat.mod_eq_of_lt (show c < 256 by omega)]
              · obtain rfl := Option.some.inj hc
                exact absurd (hhead _ (by simp)) (hlow c)
              · obtain rfl := Option.some.inj hc
                exact absurd (hhead _ (by simp)) (hlow c)
              · obtain rfl := Option.some.inj hc
                exact absurd (hhead _ (by simp)) (hlow c)

/-- The only text with the bytes of the dtype. -/
theorem utf8Encode_float32 {s : PyStr} :
    utf8Encode s = .ok (cstr "float32") ↔ s = py "float32" := by
  constructor
  · intro h
    exact utf8Encode_ascii h (ascii_of_all (by decide))
  · rintro rfl
    decide

/-! ## The checks compared -/

/-- **The check of the decoder accepts what the worker accepts**, whose products stay below 64
bits. -/
theorem validateTensor_agrees {F : Type} {A : Arith F} (hA : ReadsFloat A) (shape : List Int)
    (dtypeName : PyStr) (payload : Bytes) :
    ((∃ numbers, validateTensor payload shape dtypeName = .ok numbers) ↔
      ∃ dtype, utf8Encode dtypeName = .ok dtype ∧ Taken A { shape, dtype } payload) ∧
    ((∀ d ∈ shape, 0 < d ∧ d ≤ 4096) → ∀ p ∈ 1 :: formed shape 1, p * 4 < 2 ^ 64) := by
  constructor
  · rw [validateTensor_eq_ok_iff]
    constructor
    · rintro ⟨rfl, hfinite, himage⟩
      refine ⟨_, utf8Encode_float32.mpr rfl, validateTensorSpec_eq_none_iff.mpr ⟨rfl, himage⟩, ?_⟩
      rw [validateFinite_aligned hA]
      exact hfinite
    · rintro ⟨dtype, htext, hspec, hfinite⟩
      obtain ⟨hdtype, himage⟩ := validateTensorSpec_eq_none_iff.mp hspec
      obtain rfl : dtype = cstr "float32" := hdtype
      rw [validateFinite_aligned hA] at hfinite
      exact ⟨utf8Encode_float32.mp htext, hfinite, himage⟩
  · intro h p hp
    rcases List.mem_cons.mp hp with rfl | hp
    · decide
    · exact formed_lt h 1 p hp

/-- What the loop of the second check accepts. -/
theorem requestCount_eq_some {items : List Json} {elems n : Int}
    (h : requestCount items elems = some n) :
    (∀ item ∈ items, ∃ d, intValue item = some d ∧ 0 < d ∧ d ≤ 2048) ∧
      n = elems * (items.filterMap intValue).prod := by
  induction items generalizing elems with
  | nil =>
      obtain rfl := Option.some.inj h
      simp
  | cons item rest ih =>
      rw [requestCount] at h
      cases hitem : intValue item with
      | none =>
          rw [hitem] at h
          contradiction
      | some d =>
          rw [hitem] at h
          dsimp only at h
          split_ifs at h with hd
          obtain ⟨hrest, hn⟩ := ih h
          constructor
          · intro x hx
            rcases List.mem_cons.mp hx with rfl | hx
            · exact ⟨d, hitem, by omega, by omega⟩
            · exact hrest x hx
          · rw [hn, List.filterMap_cons_some hitem, List.prod_cons]
            ring

/-- Numbers that equal a number. -/
theorem intValue_of_eqInt {j : Json} {z d : Int} (h : j.eqInt z = true)
    (hd : intValue j = some d) : d = z := by
  cases j with
  | int w =>
      obtain rfl := Option.some.inj hd
      simpa [Json.eqInt] using h
  | bool b =>
      obtain rfl := Option.some.inj hd
      simpa [Json.eqInt] using h
  | _ => contradiction

/-- Equal integers are one. -/
theorem intValue_of_eqJson {a b : Json} {x y : Int} (h : eqJson a b = true)
    (ha : intValue a = some x) (hb : intValue b = some y) : y = x := by
  have hnumber : eqNumber a b = true := by
    cases a with
    | int z => exact h
    | bool c => exact h
    | _ => contradiction
  have hany : (intValue a).any (fun x => intValue b == some x) = true := by
    cases a with
    | int z =>
        cases b with
        | float f => contradiction
        | _ => exact hnumber
    | bool c =>
        cases b with
        | float f => contradiction
        | _ => exact hnumber
    | _ => contradiction
  rw [ha, hb] at hany
  simpa using hany

/-- A request that the second check accepts is a square image whose first numbers are
finite. -/
theorem validateTensorRequest_eq_none {shape dtype : Json} {payload : Bytes}
    (h : validateTensorRequest shape dtype payload = none) :
    ∃ size, (requestSpec shape dtype).shape = [1, 3, size, size] ∧
      (requestSpec shape dtype).dtype = cstr "float32" ∧ 0 < size ∧ size ≤ 2048 ∧
      (payload.length : Int) = 12 * (size * size) ∧
      (sampledWords payload).all finiteWord = true := by
  unfold validateTensorRequest at h
  split at h
  · rename_i batch channels height width
    split at h
    · contradiction
    rename_i hlead
    split at h
    · contradiction
    rename_i hsquare
    split at h
    · contradiction
    rename_i hdtype
    split at h
    · contradiction
    · rename_i elems hcount
      split_ifs at h with hbytes hfinite
      obtain ⟨hdims, helems⟩ := requestCount_eq_some hcount
      obtain ⟨one, hone, -⟩ := hdims batch (by simp)
      obtain ⟨three, hthree, -⟩ := hdims channels (by simp)
      obtain ⟨rows, hrows, hpos, hle⟩ := hdims height (by simp)
      obtain ⟨columns, hcolumns, -⟩ := hdims width (by simp)
      simp only [Bool.or_eq_true, Bool.not_eq_true', not_or, Bool.not_eq_false] at hlead hsquare
      obtain rfl := intValue_of_eqInt hlead.1 hone
      obtain rfl := intValue_of_eqInt hlead.2 hthree
      obtain rfl := intValue_of_eqJson hsquare hrows hcolumns
      have hshape :
          [batch, channels, height, width].filterMap intValue = [1, 3, columns, columns] := by
        simp [hone, hthree, hrows, hcolumns]
      refine ⟨columns, hshape, ?_, hpos, hle, ?_, hfinite⟩
      · cases dtype with
        | str s =>
            have hs : s = py "float32" := by simpa [Json.eqStr] using hdtype
            simp only [requestSpec, textBytes, utf8Encode_float32.mpr hs]
            rfl
        | _ => simp [Json.eqStr] at hdtype
      · rw [← not_not.mp hbytes, helems, hshape]
        simp only [List.prod_cons, List.prod_nil]
        ring
  · contradiction

/-- The sampled numbers are the first ones. -/
theorem sampledWords_eq {payload : Bytes} (h : payload.length % 4 = 0) :
    sampledWords payload = (words payload).take 1024 := by
  unfold sampledWords words
  rw [← List.map_take, List.take_range]
  congr 2
  omega

/-- **Which tensors that pass the second check pass the worker's**: those of at most 16 MiB
whose numbers behind the first 1024 are finite as well. -/
theorem tensorRequest_taken_iff {F : Type} {A : Arith F} (hA : ReadsFloat A)
    {shape dtype : Json} {payload : Bytes}
    (h : validateTensorRequest shape dtype payload = none) :
    Taken A (requestSpec shape dtype) payload ↔
      payload.length ≤ 16 * 1024 * 1024 ∧
        ((words payload).drop 1024).all finiteWord = true := by
  obtain ⟨size, hshape, hdtype, hpos, hle, hbytes, hsampled⟩ := validateTensorRequest_eq_none h
  have hfour : payload.length % 4 = 0 := by omega
  have hmax : maxTensorBytes = 16 * 1024 * 1024 := rfl
  rw [sampledWords_eq hfour] at hsampled
  have hfinite : (words payload).all finiteWord = true ↔
      ((words payload).drop 1024).all finiteWord = true := by
    conv_lhs => rw [← List.take_append_drop 1024 (words payload), List.all_append, hsampled]
    rw [Bool.true_and]
  rw [Taken, validateTensorSpec_eq_none_iff, validateFinite_aligned hA, hfinite]
  refine and_congr_left fun _ => ?_
  constructor
  · rintro ⟨-, height, width, himage⟩
    exact himage.bytes_le
  · intro hsmall
    exact ⟨hdtype, size, size, hshape, ⟨hpos, by omega⟩, ⟨hpos, by omega⟩, hbytes, hsmall⟩

/-! ## Two tensors -/

/-- The number with some bits, if they are finite. -/
def floatValue (w : Nat) : Option ℚ :=
  let exponent : ℕ := w / 2 ^ 23 % 256
  let fraction : ℕ := w % 2 ^ 23
  let magnitude : ℚ :=
    if exponent = 0 then fraction / 2 ^ 149
    else ((2 ^ 23 + fraction : ℕ) : ℚ) * (2 : ℚ) ^ ((exponent : Int) - 150)
  if finiteWord w then some (if w / 2 ^ 31 % 2 = 1 then -magnitude else magnitude) else none

/-- Exact arithmetic on the numbers that are finite. -/
def finiteArith : Arith (Option ℚ) where
  zero := some 0
  one := some 1
  half := some (1 / 2)
  tiny := some (1 / 1000000000)
  add a b := a.bind fun x => b.map fun y => x + y
  sub a b := a.bind fun x => b.map fun y => x - y
  mul a b := a.bind fun x => b.map fun y => x * y
  div a b := a.bind fun x => b.bind fun y => if y = 0 then none else some (x / y)
  lt a b := a.any fun x => b.any fun y => decide (x < y)
  eq a b := a.any fun x => b.any fun y => decide (x = y)
  finite := Option.isSome
  ofInt z := some z
  ofBytes b := floatValue (word b)
  toBytes _ := []

theorem finiteArith_readsFloat : ReadsFloat finiteArith := by
  intro b _
  change (floatValue (word b)).isSome = _
  unfold floatValue
  cases finiteWord (word b) <;> rfl

/-- A tensor of four zeros in each channel. -/
def zeroPayload : Bytes :=
  List.replicate 48 0

/-- The dimensions of a square image. -/
def squareShape (size : Int) : Json :=
  .arr [.int 1, .int 3, .int size, .int size]

/-- A tensor whose last number is infinite. -/
def infinitePayload : Bytes :=
  List.replicate (4 * 1082) 0 ++ [0, 0, 128, 127]

/-- A tensor of zeros is accepted by all checks. -/
theorem validateTensor_agrees_zeros :
    Taken finiteArith { shape := [1, 3, 2, 2], dtype := cstr "float32" } zeroPayload ∧
      ∀ p ∈ 1 :: formed [1, 3, 2, 2] 1, p * 4 < 2 ^ 64 := by
  obtain ⟨hagree, hformed⟩ :=
    validateTensor_agrees finiteArith_readsFloat [1, 3, 2, 2] (py "float32") zeroPayload
  refine ⟨?_, hformed (by decide)⟩
  obtain ⟨dtype, hdtype, htaken⟩ := hagree.mp ⟨words zeroPayload, by decide⟩
  rw [utf8Encode_float32.mpr rfl] at hdtype
  obtain rfl := Except.ok.inj hdtype
  exact htaken

theorem tensorRequest_taken_zeros :
    Taken finiteArith (requestSpec (squareShape 2) (.str (py "float32"))) zeroPayload :=
  (tensorRequest_taken_iff finiteArith_readsFloat (by decide)).mpr ⟨by decide, by decide⟩

theorem infinitePayload_length : infinitePayload.length = 4332 := by
  rw [infinitePayload, List.length_append, List.length_replicate]
  rfl

theorem infinitePayload_words :
    words infinitePayload = List.replicate 1082 0 ++ [0x7F800000] :=
  words_zeros 1082 [0, 0, 128, 127]

theorem infinitePayload_accepted :
    validateTensorRequest (squareShape 19) (.str (py "float32")) infinitePayload = none := by
  have hcount : requestCount [.int 1, .int 3, .int 19, .int 19] 1 = some 1083 := by decide
  have hsampled : (sampledWords infinitePayload).all finiteWord = true := by
    rw [sampledWords_eq (by rw [infinitePayload_length]), infinitePayload_words,
      List.take_append_of_le_length (by rw [List.length_replicate]; decide), List.take_replicate,
      List.all_replicate]
    decide
  simp only [validateTensorRequest, squareShape]
  rw [if_neg (by decide), if_neg (by decide), if_neg (by decide), hcount]
  dsimp only
  rw [infinitePayload_length, if_neg (by decide), if_pos hsampled]

/-- An infinite number behind the first 1024 passes the second check and not the worker's. -/
theorem infinitePayload_untaken :
    ReadsFloat finiteArith ∧
      validateTensorRequest (squareShape 19) (.str (py "float32")) infinitePayload = none ∧
      ¬ Taken finiteArith (requestSpec (squareShape 19) (.str (py "float32"))) infinitePayload := by
  have hlast : ((words infinitePayload).drop 1024).all finiteWord = false := by
    rw [infinitePayload_words,
      List.drop_append_of_le_length (by rw [List.length_replicate]; decide), List.drop_replicate,
      List.all_append, List.all_replicate]
    decide
  have hiff := tensorRequest_taken_iff finiteArith_readsFloat infinitePayload_accepted
  rw [hlast] at hiff
  exact ⟨finiteArith_readsFloat, infinitePayload_accepted,
    fun htaken => Bool.false_ne_true (hiff.mp htaken).2⟩

end Models
end FrigateXdna
