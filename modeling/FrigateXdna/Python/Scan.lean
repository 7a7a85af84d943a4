import FrigateXdna.Python.Json

/-!
# Reading printed JSON

What the decoder and the scanner make of text that a printer wrote: UTF-8 split at an ASCII
byte, decimal integers, and the strings of a printer that escapes nothing but quotes,
backslashes and control characters.

Main results:

- Theorem {lit}`utf8Decode_append`: decoding splits in front of an ASCII byte.
- Theorem {lit}`utf8Decode_scalar`: decoding yields no surrogates.
- Theorem {lit}`scanAtom_intRepr`: a printed integer is scanned.
-/

namespace FrigateXdna
namespace Python

/-! ## UTF-8 in pieces -/

/-- No continuation byte is ASCII. -/
theorem utf8Lead_lo {b need cp lo hi : Nat} (h : utf8Lead b = some (need, cp, lo, hi)) :
    0x80 ≤ lo := by
  unfold utf8Lead at h
  split_ifs at h <;> simp at h <;> omega

/-- Decoding with bytes outstanding stops at an ASCII byte. -/
theorem utf8Go_append {b : UInt8} (hb : b.toNat < 0x80) (s rest : Bytes)
    {need lo : Nat} (hlo : need = 0 ∨ 0x80 ≤ lo) (cp hi : Nat) :
    utf8Go (s ++ b :: rest) need cp lo hi =
      (utf8Go s need cp lo hi).bind fun head =>
        (utf8Decode (b :: rest)).map fun tail => head ++ tail := by
  induction s generalizing need cp lo hi with
  | nil =>
      cases need with
      | zero => simp [utf8Go, utf8Decode, hb, Function.comp_def]
      | succ need =>
          have hout : ¬ (lo ≤ b.toNat ∧ b.toNat ≤ hi) := by omega
          simp [utf8Go, hout]
  | cons c cs ih =>
      cases need with
      | zero =>
          rw [List.cons_append, utf8Go, utf8Go]
          by_cases hc : c.toNat < 0x80
          · rw [if_pos hc, if_pos hc, ih (Or.inl rfl), Option.map_bind, Option.bind_map]
            simp [Function.comp_def]
          · rw [if_neg hc, if_neg hc]
            cases hlead : utf8Lead c.toNat with
            | none => rfl
            | some lead =>
                obtain ⟨need, cp', lo', hi'⟩ := lead
                exact ih (Or.inr (utf8Lead_lo hlead)) cp' hi'
      | succ need =>
          rw [List.cons_append, utf8Go, utf8Go]
          by_cases hc : lo ≤ c.toNat ∧ c.toNat ≤ hi
          · rw [if_pos hc, if_pos hc]
            by_cases hlast : need = 0
            · rw [if_pos hlast, if_pos hlast, ih (Or.inl rfl), Option.map_bind, Option.bind_map]
              simp [Function.comp_def]
            · rw [if_neg hlast, if_neg hlast]
              exact ih (Or.inr (by decide)) _ _
          · rw [if_neg hc, if_neg hc]
            rfl

/-- **Decoding splits in front of an ASCII byte.** -/
theorem utf8Decode_append {b : UInt8} (hb : b.toNat < 0x80) (s rest : Bytes) :
    utf8Decode (s ++ b :: rest) =
      (utf8Decode s).bind fun head => (utf8Decode (b :: rest)).map fun tail => head ++ tail :=
  utf8Go_append hb s rest (Or.inl rfl) 0 0

/-- ASCII in front is decoded as it is. -/
theorem utf8Decode_ascii_append {s : Bytes} (hs : ∀ b ∈ s, b.toNat < 0x80) (rest : Bytes) :
    utf8Decode (s ++ rest) = (utf8Decode rest).map fun tail => s.map UInt8.toNat ++ tail := by
  induction s with
  | nil =>
      have hid : (fun tail : PyStr => ([] : Bytes).map UInt8.toNat ++ tail) = id := rfl
      rw [hid, Option.map_id]
      rfl
  | cons b bs ih =>
      have hb := hs b List.mem_cons_self
      have hstep : ∀ more : Bytes, utf8Decode (b :: more) =
          (utf8Decode more).map (b.toNat :: ·) := by
        intro more
        rw [utf8Decode, utf8Go, if_pos hb]
        rfl
      rw [List.cons_append, hstep, ih fun c hc => hs c (List.mem_cons_of_mem b hc),
        Option.map_map]
      rfl

/-! ## No surrogates -/

/-- A code point that is no surrogate. -/
def Scalar (c : Nat) : Prop :=
  c < 0xD800 ∨ 0xE000 ≤ c

/-- Whatever completes the sequence, it is no ASCII character and no surrogate. -/
def Completes : (need cp lo hi : Nat) → Prop
  | 0, _, _, _ => True
  | 1, cp, lo, hi =>
      ∀ b, lo ≤ b → b ≤ hi → 0x80 ≤ cp * 64 + (b - 0x80) ∧ Scalar (cp * 64 + (b - 0x80))
  | need + 2, cp, lo, hi =>
      ∀ b, lo ≤ b → b ≤ hi → Completes (need + 1) (cp * 64 + (b - 0x80)) 0x80 0xBF

theorem completes_zero : Completes 0 0 0 0 :=
  trivial

theorem utf8Lead_completes {b need cp lo hi : Nat} (h : utf8Lead b = some (need, cp, lo, hi)) :
    Completes need cp lo hi := by
  unfold utf8Lead at h
  split_ifs at h <;> simp only [Option.some.injEq, Prod.mk.injEq] at h <;>
    obtain ⟨rfl, rfl, rfl, rfl⟩ := h <;> simp only [Completes, Scalar] <;> intros <;> omega

theorem utf8Go_scalar {s : Bytes} {need cp lo hi : Nat} (h : Completes need cp lo hi)
    {text : PyStr} (htext : utf8Go s need cp lo hi = some text) : ∀ c ∈ text, Scalar c := by
  induction s generalizing need cp lo hi text with
  | nil =>
      cases need with
      | zero =>
          obtain rfl := Option.some.inj htext
          exact fun c hc => absurd hc List.not_mem_nil
      | succ need => contradiction
  | cons b bs ih =>
      cases need with
      | zero =>
          rw [utf8Go] at htext
          by_cases hb : b.toNat < 0x80
          · rw [if_pos hb] at htext
            obtain ⟨rest, hrest, rfl⟩ := Option.map_eq_some_iff.mp htext
            intro c hc
            rcases List.mem_cons.mp hc with rfl | hc
            · exact Or.inl (by omega)
            · exact ih completes_zero hrest c hc
          · rw [if_neg hb] at htext
            cases hlead : utf8Lead b.toNat with
            | none => simp [hlead] at htext
            | some lead =>
                rw [hlead] at htext
                exact ih (utf8Lead_completes hlead) htext
      | succ need =>
          rw [utf8Go] at htext
          by_cases hb : lo ≤ b.toNat ∧ b.toNat ≤ hi
          · rw [if_pos hb] at htext
            cases need with
            | zero =>
                simp only [Completes] at h
                have hlast := h b.toNat hb.1 hb.2
                dsimp only at htext
                rw [if_pos rfl] at htext
                generalize cp * 64 + (b.toNat - 0x80) = point at htext hlast
                obtain ⟨rest, hrest, rfl⟩ := Option.map_eq_some_iff.mp htext
                intro c hc
                rcases List.mem_cons.mp hc with rfl | hc
                · exact hlast.2
                · exact ih completes_zero hrest c hc
            | succ need => exact ih (h b.toNat hb.1 hb.2) htext
          · rw [if_neg hb] at htext
            contradiction

/-- **Decoded text has no surrogates.** -/
theorem utf8Decode_scalar {s : Bytes} {text : PyStr} (h : utf8Decode s = some text) :
    ∀ c ∈ text, Scalar c :=
  utf8Go_scalar completes_zero h

/-- Text without surrogates is not paired up. -/
theorem joinSurrogates_eq_self {s : PyStr} (h : ∀ c ∈ s, Scalar c) : joinSurrogates s = s := by
  induction s with
  | nil => rfl
  | cons c cs ih =>
      have hrest := ih fun d hd => h d (List.mem_cons_of_mem c hd)
      cases cs with
      | nil => rfl
      | cons d ds =>
          have hc : ¬ (0xD800 ≤ c ∧ c < 0xDC00 ∧ 0xDC00 ≤ d ∧ d < 0xE000) := by
            have hscalar : c < 0xD800 ∨ 0xE000 ≤ c := h c List.mem_cons_self
            omega
          rw [joinSurrogates, if_neg hc, hrest]

/-! ## Printed integers -/

/-- A positive number does not start with a zero. -/
theorem natDigits_head {n : Nat} (h : 0 < n) :
    ∃ d rest, natDigits n = d :: rest ∧ 49 ≤ d ∧ d ≤ 57 := by
  induction n using Nat.strongRecOn with
  | _ n ih =>
      by_cases hlt : n < 10
      · have hdigits : natDigits n = [n.digitChar.toNat] := by
          rw [natDigits, Nat.toDigits_of_lt_base hlt]
          rfl
        have hchar : ∀ m < 10, 0 < m → 49 ≤ m.digitChar.toNat ∧ m.digitChar.toNat ≤ 57 := by
          decide
        exact ⟨_, [], hdigits, hchar n hlt h⟩
      · have hsplit : natDigits n = natDigits (n / 10) ++ [(n % 10).digitChar.toNat] := by
          rw [natDigits, Nat.toDigits_of_base_le (by decide) (Nat.not_lt.mp hlt), List.map_append]
          rfl
        obtain ⟨d, rest, hdigits, hbounds⟩ := ih (n / 10) (by omega) (by omega)
        refine ⟨d, rest ++ [(n % 10).digitChar.toNat], ?_, hbounds⟩
        rw [hsplit, hdigits]
        rfl

theorem natDigits_zero : natDigits 0 = [48] :=
  rfl

/-- A machine word has few digits. -/
theorem natDigits_length {n : Nat} (h : n < 2 ^ 64) : (natDigits n).length ≤ 20 := by
  rw [natDigits, List.length_map, Nat.length_toDigits_le_iff (by decide) (by decide)]
  omega

theorem natDigits_length_le_max {n : Nat} (h : n < 2 ^ 64) :
    (natDigits n).length ≤ maxIntDigits :=
  (natDigits_length h).trans (by decide)

/-- Digits are scanned up to what follows them. -/
theorem scanDigits_append {digits : PyStr} (h : ∀ c ∈ digits, 48 ≤ c ∧ c ≤ 57) {tail : PyStr}
    (htail : ∀ c ∈ tail.head?, ¬ (48 ≤ c ∧ c ≤ 57)) (acc count : Nat) :
    scanDigits acc count (digits ++ tail) =
      (digits.foldl (fun value d => 10 * value + (d - 48)) acc, count + digits.length, tail) := by
  induction digits generalizing acc count with
  | nil =>
      cases tail with
      | nil => rfl
      | cons c rest => simp [scanDigits, htail c rfl]
  | cons d ds ih =>
      rw [List.cons_append, scanDigits, if_pos (h d List.mem_cons_self),
        ih fun e he => h e (List.mem_cons_of_mem d he), List.foldl_cons, List.length_cons,
        Nat.mul_comm acc 10, Nat.add_assoc, Nat.add_comm 1]

/-- What may follow an integer in JSON. -/
def EndsInt (c : Nat) : Prop :=
  c = 44 ∨ c = 93 ∨ c = 125

/-- A number ends where the text goes on. -/
def EndsNumber (tail : PyStr) : Prop :=
  ∀ c ∈ tail.head?, EndsInt c

theorem endsNumber_nil : EndsNumber [] :=
  fun _ hc => by contradiction

theorem endsNumber_cons {c : Nat} (hc : EndsInt c) (rest : PyStr) : EndsNumber (c :: rest) := by
  intro d hd
  obtain rfl := Option.some.inj hd
  exact hc

theorem EndsNumber.not_digit {tail : PyStr} (h : EndsNumber tail) :
    ∀ c ∈ tail.head?, ¬ (48 ≤ c ∧ c ≤ 57) := by
  intro c hc
  rcases h c hc with rfl | rfl | rfl <;> decide

theorem EndsNumber.scanFraction {tail : PyStr} (h : EndsNumber tail) (whole : Nat) :
    scanFraction whole tail = (whole, 0, tail) := by
  cases tail with
  | nil => rfl
  | cons c rest => rcases h c rfl with rfl | rfl | rfl <;> rfl

theorem EndsNumber.scanExponent {tail : PyStr} (h : EndsNumber tail) :
    scanExponent tail = none := by
  cases tail with
  | nil => rfl
  | cons c rest => rcases h c rfl with rfl | rfl | rfl <;> rfl

/-- A printed natural number is scanned. -/
theorem scanNumber_natDigits {n : Nat} (hn : (natDigits n).length ≤ maxIntDigits) {tail : PyStr}
    (htail : EndsNumber tail) (neg : Bool) :
    scanNumber neg (natDigits n ++ tail) =
      some (.int (if neg then -(n : Int) else (n : Int)), tail) := by
  by_cases hzero : n = 0
  · subst hzero
    rw [natDigits_zero]
    simp [scanNumber, htail.scanFraction, htail.scanExponent, maxIntDigits]
  · obtain ⟨d, ds, hdigits, hbounds⟩ := natDigits_head (Nat.pos_of_ne_zero hzero)
    have hscan : scanDigits 0 0 (d :: (ds ++ tail)) = (n, (natDigits n).length, tail) := by
      have happend := scanDigits_append (fun e he => natDigits_bounds (n := n) he)
        htail.not_digit 0 0
      rw [natDigits_value, Nat.zero_add, hdigits] at happend
      rw [hdigits]
      exact happend
    have hinteger : (49 ≤ d ∧ d ≤ 57) := hbounds
    have hshort : ¬ maxIntDigits < (natDigits n).length := Nat.not_lt.mpr hn
    have hne : d ≠ 48 := by omega
    rw [hdigits, List.cons_append]
    unfold scanNumber
    simp [hinteger, hscan, htail.scanFraction, htail.scanExponent, hshort]

/-- The constants of {lit}`json.loads`. -/
def literals : List PyStr :=
  [py "null", py "true", py "false", py "NaN", py "Infinity", py "-Infinity"]

/-- What is no constant is a number. -/
theorem scanAtom_of_literals {c : Nat} {rest : PyStr}
    (h : ∀ lit ∈ literals, dropLit? lit (c :: rest) = none) :
    scanAtom (c :: rest) =
      if c = 45 then scanNumber true rest else scanNumber false (c :: rest) := by
  simp only [literals, List.forall_mem_cons] at h
  obtain ⟨h1, h2, h3, h4, h5, h6, -⟩ := h
  by_cases hc : c = 45
  · subst hc
    rw [if_pos rfl, scanAtom, h1, h2, h3, h4, h5, h6]
  · rw [if_neg hc, scanAtom, h1, h2, h3, h4, h5, h6]
    simp [hc]

/-- No constant starts with a digit, or with a sign and a digit. -/
theorem dropLit?_digit {d : Nat} (hd : 48 ≤ d ∧ d ≤ 57) (rest : PyStr) :
    ∀ lit ∈ literals, dropLit? lit (d :: rest) = none ∧ dropLit? lit (45 :: d :: rest) = none := by
  have hletter : ∀ n, n < 48 ∨ 57 < n → n ≠ d := by omega
  simp only [literals, List.forall_mem_cons, List.not_mem_nil, false_implies, implies_true,
    and_true]
  simp [dropLit?, startsWith, py, hletter]

/-- **A printed integer is scanned.** -/
theorem scanAtom_intRepr {z : Int} (hz : (natDigits z.natAbs).length ≤ maxIntDigits)
    {tail : PyStr} (htail : EndsNumber tail) :
    scanAtom (intRepr z ++ tail) = some (.int z, tail) := by
  have hdigits : ∃ d ds, natDigits z.natAbs = d :: ds ∧ 48 ≤ d ∧ d ≤ 57 := by
    cases h : natDigits z.natAbs with
    | nil => exact absurd h (natDigits_ne_nil _)
    | cons d ds => exact ⟨d, ds, rfl, natDigits_bounds (h ▸ List.mem_cons_self)⟩
  obtain ⟨d, ds, hd, hbounds⟩ := hdigits
  have hliterals := dropLit?_digit hbounds (ds ++ tail)
  by_cases hneg : z < 0
  · have hrepr : intRepr z ++ tail = 45 :: d :: (ds ++ tail) := by
      rw [intRepr, if_pos hneg, hd]
      rfl
    have hscan := scanNumber_natDigits hz htail true
    have hvalue : -(z.natAbs : Int) = z := by omega
    rw [hd, List.cons_append, if_pos rfl, hvalue] at hscan
    rw [hrepr, scanAtom_of_literals fun lit hlit => (hliterals lit hlit).2, if_pos rfl]
    exact hscan
  · have hrepr : intRepr z ++ tail = d :: (ds ++ tail) := by
      rw [intRepr, if_neg hneg, hd]
      rfl
    have hscan := scanNumber_natDigits hz htail false
    have hvalue : (z.natAbs : Int) = z := by omega
    rw [hd, List.cons_append, if_neg Bool.false_ne_true, hvalue] at hscan
    have hminus : d ≠ 45 := by omega
    rw [hrepr, scanAtom_of_literals fun lit hlit => (hliterals lit hlit).1, if_neg hminus]
    exact hscan

/-- What is no blank is not skipped. -/
theorem skipBlank_cons {c : Nat} (h : c ≠ 32 ∧ c ≠ 9 ∧ c ≠ 10 ∧ c ≠ 13) (rest : PyStr) :
    skipBlank (c :: rest) = c :: rest := by
  simp [skipBlank, h]

/-- The first character of an integer. -/
theorem intRepr_head (z : Int) : ∃ c rest, intRepr z = c :: rest ∧ (c = 45 ∨ 48 ≤ c ∧ c ≤ 57) := by
  cases h : intRepr z with
  | nil =>
      unfold intRepr at h
      split at h
      · contradiction
      · exact absurd h (natDigits_ne_nil _)
  | cons c rest => exact ⟨c, rest, rfl, intRepr_bounds (h ▸ List.mem_cons_self)⟩

/-- A printed integer is read. -/
theorem scanValue_intRepr {z : Int} (hz : (natDigits z.natAbs).length ≤ maxIntDigits)
    {tail : PyStr} (htail : EndsNumber tail) (fuel depth : Nat) :
    scanValue (fuel + 1) depth (intRepr z ++ tail) = .ok (.int z, tail) := by
  obtain ⟨d, more, hd, hbounds⟩ := intRepr_head z
  have hscan := scanAtom_intRepr hz htail
  rw [hd, List.cons_append] at hscan ⊢
  have hquote : d ≠ 34 := by omega
  have hbracket : d ≠ 91 := by omega
  have hbrace : d ≠ 123 := by omega
  simp [scanValue, hquote, hbracket, hbrace, hscan]

end Python
end FrigateXdna
