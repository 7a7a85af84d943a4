import Mathlib.Data.List.TakeWhile
import FrigateXdna.Native.Protocol

/-!
# What the extractor finds in printed headers

{lit}`json.dumps` separates fields by a comma and a space.  The extractor looks for the
first place where a key stands between two quotes: the key itself, or a text value before
it that ends in the key.

Main results:

- Theorem {lit}`fieldValue_items`: the value that the extractor reads for a key.
- Theorem {lit}`numberValue_decimal`: a printed number is read back.
- Theorem {lit}`unescape_escaped`, {lit}`readBack_decode_iff`: a printed text is read back
  exactly when it is printable ASCII.
-/

namespace FrigateXdna
namespace Native

open Python Library

/-! ## Numbers -/

/-- Bytes that stand for code points below 256. -/
theorem ofNat_toNat_of_lt {c : Nat} (h : c < 256) : (UInt8.ofNat c).toNat = c := by
  simpa using Nat.mod_eq_of_lt h

/-- Printed integers consist of digits behind at most one sign. -/
theorem decimal_bounds {z : Int} {b : UInt8} (h : b ∈ decimal z) :
    b = 45 ∨ isDigit b = true := by
  obtain ⟨c, hc, rfl⟩ := List.mem_map.mp h
  rcases intRepr_bounds hc with rfl | ⟨hlo, hhi⟩
  · exact Or.inl rfl
  · right
    have hnat : (UInt8.ofNat c).toNat = c := ofNat_toNat_of_lt (by omega)
    simp only [isDigit, decide_eq_true_eq, UInt8.le_iff_toNat_le, hnat]
    exact ⟨hlo, hhi⟩

theorem decimal_ne_nil (z : Int) : decimal z ≠ [] := by
  unfold decimal intRepr
  split <;> simp [natDigits_ne_nil]

/-- A byte that no printed integer has. -/
theorem notMem_decimal {b : UInt8} (hsign : b ≠ 45) (hdigit : isDigit b = false) (z : Int) :
    b ∉ decimal z := by
  intro hmem
  rcases decimal_bounds hmem with heq | htrue
  · exact hsign heq
  · rw [hdigit] at htrue
    contradiction

/-- Bytes without a blank are not trimmed. -/
theorem dropWhile_isSpace {s : Bytes} (hne : s ≠ []) (h : ∀ b ∈ s, isSpace b = false)
    (rest : Bytes) :
    (s ++ rest).dropWhile isSpace = s ++ rest := by
  cases s with
  | nil => contradiction
  | cons b bs =>
      rw [List.cons_append, List.dropWhile_cons_of_neg]
      simp [h b List.mem_cons_self]

theorem trim_eq_self {s : Bytes} (hne : s ≠ []) (h : ∀ b ∈ s, isSpace b = false) :
    trim s = s := by
  have hhead : s.dropWhile isSpace = s := by
    simpa using dropWhile_isSpace hne h []
  have hlast : s.reverse.dropWhile isSpace = s.reverse := by
    have hback := dropWhile_isSpace (s := s.reverse) (by simpa using hne)
      (fun b hb => h b (List.mem_reverse.mp hb)) []
    simpa using hback
  rw [trim, hhead, hlast, List.reverse_reverse]

theorem decimal_not_isSpace (z : Int) : ∀ b ∈ decimal z, isSpace b = false := by
  intro b hb
  rw [Bool.eq_false_iff]
  intro hspace
  rcases decimal_bounds hb with rfl | hdigit
  · exact absurd hspace (by decide)
  · have hlo : 48 ≤ b := (of_decide_eq_true hdigit).1
    simp only [isSpace, Bool.or_eq_true, decide_eq_true_eq, beq_iff_eq] at hspace
    rcases hspace with ⟨-, hhi⟩ | rfl
    · exact absurd (UInt8.le_trans hlo hhi) (by decide)
    · exact absurd hlo (by decide)

/-- The digits of a natural number are read to their end. -/
theorem takeWhile_natDigits (n : Nat) :
    ((natDigits n).map UInt8.ofNat).takeWhile isDigit = (natDigits n).map UInt8.ofNat := by
  rw [List.takeWhile_eq_self_iff]
  intro b hb
  obtain ⟨c, hc, rfl⟩ := List.mem_map.mp hb
  obtain ⟨hlo, hhi⟩ := natDigits_bounds hc
  simp only [isDigit, decide_eq_true_eq, UInt8.le_iff_toNat_le,
    ofNat_toNat_of_lt (show c < 256 by omega)]
  exact ⟨hlo, hhi⟩

theorem digitsValue_natDigits (n : Nat) : digitsValue ((natDigits n).map UInt8.ofNat) = n := by
  have hsum : ∀ (digits : List Nat), (∀ c ∈ digits, c < 256) → ∀ value,
      (digits.map UInt8.ofNat).foldl (fun n c => 10 * n + (c.toNat - 48)) value =
        digits.foldl (fun value c => 10 * value + (c - 48)) value := by
    intro digits
    induction digits with
    | nil => exact fun _ _ => rfl
    | cons c cs ih =>
        intro hall value
        rw [List.map_cons, List.foldl_cons, List.foldl_cons,
          ofNat_toNat_of_lt (hall c List.mem_cons_self),
          ih fun d hd => hall d (List.mem_cons_of_mem c hd)]
  rw [digitsValue, hsum _ (fun c hc => Nat.lt_of_le_of_lt (natDigits_bounds hc).2 (by decide)),
    natDigits_value]

/-- The digits of a number do not start with a sign. -/
theorem splitSign_natDigits (n : Nat) :
    splitSign ((natDigits n).map UInt8.ofNat) = (false, (natDigits n).map UInt8.ofNat) := by
  have hdigits : ∀ b ∈ (natDigits n).map UInt8.ofNat, isDigit b = true :=
    List.takeWhile_eq_self_iff.mp (takeWhile_natDigits n)
  unfold splitSign
  split
  · rename_i rest heq
    exact absurd (hdigits 43 (by rw [heq]; exact List.mem_cons_self)) (by decide)
  · rename_i rest heq
    exact absurd (hdigits 45 (by rw [heq]; exact List.mem_cons_self)) (by decide)
  · rfl

/-- **A printed integer is read back.** -/
theorem strtoll_decimal (z : Int) : strtoll (decimal z) = some z := by
  have hblank : (decimal z).dropWhile isSpace = decimal z := by
    simpa using dropWhile_isSpace (decimal_ne_nil z) (decimal_not_isSpace z) []
  have hdigits : ((natDigits z.natAbs).map UInt8.ofNat).isEmpty = false := by
    simp [natDigits_ne_nil]
  by_cases hneg : z < 0
  · have hsign : splitSign (decimal z) = (true, (natDigits z.natAbs).map UInt8.ofNat) := by
      simp only [decimal, intRepr, if_pos hneg]
      rfl
    simp only [strtoll, hblank, hsign, takeWhile_natDigits, hdigits, digitsValue_natDigits,
      Bool.false_eq_true, if_false, if_true]
    rw [Option.some.injEq]
    omega
  · have hsign : splitSign (decimal z) = (false, (natDigits z.natAbs).map UInt8.ofNat) := by
      simp only [decimal, intRepr, if_neg hneg]
      exact splitSign_natDigits _
    simp only [strtoll, hblank, hsign, takeWhile_natDigits, hdigits, digitsValue_natDigits,
      Bool.false_eq_true, if_false]
    rw [Option.some.injEq]
    omega

/-- The number in front of a comma or a brace. -/
theorem numberValue_decimal {z : Int} (hlo : -2 ^ 63 ≤ z) (hhi : z < 2 ^ 63) {sep : UInt8}
    (hsep : endsNumber sep = true) (rest : Bytes) :
    numberValue (decimal z ++ sep :: rest) = some z := by
  have hdecimal : ∀ b ∈ decimal z, (!endsNumber b) = true := by
    intro b hb
    rcases decimal_bounds hb with rfl | hdigit
    · decide
    · have hlo : 48 ≤ b ∧ b ≤ 57 := of_decide_eq_true hdigit
      simp only [endsNumber, Bool.not_eq_true', Bool.or_eq_false_iff, beq_eq_false_iff_ne]
      refine ⟨?_, ?_⟩
      · rintro rfl
        exact absurd hlo.1 (by decide)
      · rintro rfl
        exact absurd hlo.2 (by decide)
  have htoken : (decimal z ++ sep :: rest).takeWhile (fun c => !endsNumber c) = decimal z := by
    rw [List.takeWhile_append_of_pos hdecimal, List.takeWhile_cons_of_neg (by simp [hsep]),
      List.append_nil]
  have hany : (decimal z ++ sep :: rest).any endsNumber = true := by
    simp [hsep]
  rw [numberValue, if_pos hany, htoken, trim_eq_self (decimal_ne_nil z) (decimal_not_isSpace z),
    stoll, strtoll_decimal, Option.filter_some, if_pos (by simpa using ⟨hlo, hhi⟩)]

/-- The first byte stays when the blanks go. -/
theorem trim_cons {b : UInt8} (hb : isSpace b = false) (s : Bytes) :
    ∃ rest, trim (b :: s) = b :: rest := by
  have hhead : (b :: s).dropWhile isSpace = b :: s :=
    List.dropWhile_cons_of_neg (by simp [hb])
  have hlast : ∃ back, (s.reverse ++ [b]).dropWhile isSpace = back ++ [b] := by
    induction s.reverse with
    | nil => exact ⟨[], List.dropWhile_cons_of_neg (by simp [hb])⟩
    | cons c cs ih =>
        rw [List.cons_append]
        by_cases hc : isSpace c = true
        · rw [List.dropWhile_cons_of_pos hc]
          exact ih
        · exact ⟨c :: cs, List.dropWhile_cons_of_neg hc⟩
  obtain ⟨back, hback⟩ := hlast
  refine ⟨back.reverse, ?_⟩
  rw [trim, hhead, List.reverse_cons, hback, List.reverse_append]
  rfl

/-- A bracket is no number. -/
theorem numberValue_bracket (rest : Bytes) : numberValue (91 :: rest) = none := by
  unfold numberValue
  split
  · rw [List.takeWhile_cons_of_pos (by decide)]
    obtain ⟨token, htoken⟩ := trim_cons (b := 91) (by decide)
      (rest.takeWhile fun c => !endsNumber c)
    rw [htoken]
    rfl
  · rfl

/-! ## Text -/

/-- A text value as {lit}`json.dumps` prints it between the quotes. -/
def escaped (s : PyStr) : Bytes :=
  (s.flatMap escapeChar).map UInt8.ofNat

@[simp]
theorem escaped_nil : escaped [] = [] :=
  rfl

theorem escaped_cons (c : Nat) (s : PyStr) :
    escaped (c :: s) = (escapeChar c).map UInt8.ofNat ++ escaped s := by
  simp [escaped]

/-- Hexadecimal digits. -/
theorem hex4_bounds {n d : Nat} (h : d ∈ hex4 n) : 48 ≤ d ∧ d ≤ 57 ∨ 97 ≤ d ∧ d ≤ 102 := by
  obtain ⟨x, hx, rfl⟩ := List.mem_map.mp h
  have hlt : x < 16 := by
    simp only [List.mem_cons, List.not_mem_nil, or_false] at hx
    rcases hx with rfl | rfl | rfl | rfl <;> exact Nat.mod_lt _ (by decide)
  split <;> omega

/-- The ways in which a character is escaped. -/
inductive EscapedAs (c : Nat) : PyStr → Prop
  | marked (h : c = 34 ∨ c = 92) : EscapedAs c [92, c]
  | plain (hlo : 32 ≤ c) (hhi : c ≤ 126) (hquote : c ≠ 34) (hback : c ≠ 92) : EscapedAs c [c]
  | letter (e : Nat) (hlo : 97 ≤ e) (hhi : e ≤ 122) (h : c < 32) : EscapedAs c [92, e]
  | short (n : Nat) (h : ¬ (32 ≤ c ∧ c ≤ 126)) : EscapedAs c ([92, 117] ++ hex4 n)
  | long (n m : Nat) (h : ¬ (32 ≤ c ∧ c ≤ 126)) :
      EscapedAs c ([92, 117] ++ (hex4 n ++ ([92, 117] ++ hex4 m)))

theorem escapeChar_cases (c : Nat) : EscapedAs c (escapeChar c) := by
  by_cases hquote : c = 34
  · subst hquote
    exact .marked (Or.inl rfl)
  by_cases hback : c = 92
  · subst hback
    exact .marked (Or.inr rfl)
  by_cases hline : c = 10
  · subst hline
    exact .letter 110 (by decide) (by decide) (by decide)
  by_cases hreturn : c = 13
  · subst hreturn
    exact .letter 114 (by decide) (by decide) (by decide)
  by_cases htab : c = 9
  · subst htab
    exact .letter 116 (by decide) (by decide) (by decide)
  by_cases hform : c = 12
  · subst hform
    exact .letter 102 (by decide) (by decide) (by decide)
  by_cases hbell : c = 8
  · subst hbell
    exact .letter 98 (by decide) (by decide) (by decide)
  by_cases hprint : 32 ≤ c ∧ c ≤ 126
  · have hplain : escapeChar c = [c] := by
      simp [escapeChar, hquote, hback, hline, hreturn, htab, hform, hbell, hprint]
    rw [hplain]
    exact .plain hprint.1 hprint.2 hquote hback
  · have hlong : escapeChar c = if c < 0x10000 then py "\\u" ++ hex4 c
        else py "\\u" ++ hex4 (0xD800 + (c - 0x10000) / 0x400) ++
          py "\\u" ++ hex4 (0xDC00 + (c - 0x10000) % 0x400) := by
      simp only [escapeChar, hquote, hback, hline, hreturn, htab, hform, hbell, hprint, if_false]
    have hmark : py "\\u" = [92, 117] := rfl
    rw [hlong, hmark]
    split
    · exact .short _ hprint
    · rw [List.append_assoc, List.append_assoc]
      exact .long _ _ hprint

/-- An escaped character is printable ASCII. -/
theorem EscapedAs.printable {c d : Nat} {text : PyStr} (h : EscapedAs c text) (hd : d ∈ text) :
    32 ≤ d ∧ d ≤ 126 := by
  have hhex : ∀ n, d ∈ hex4 n → 32 ≤ d ∧ d ≤ 126 := by
    intro n hd
    have := hex4_bounds hd
    omega
  cases h with
  | marked hc =>
      simp only [List.mem_cons, List.not_mem_nil, or_false] at hd
      omega
  | plain hlo hhi =>
      obtain rfl := List.mem_singleton.mp hd
      exact ⟨hlo, hhi⟩
  | letter e hlo hhi =>
      simp only [List.mem_cons, List.not_mem_nil, or_false] at hd
      omega
  | short n =>
      simp only [List.mem_append, List.mem_cons, List.not_mem_nil, or_false] at hd
      rcases hd with (rfl | rfl) | hd
      · decide
      · decide
      · exact hhex n hd
  | long n m =>
      simp only [List.mem_append, List.mem_cons, List.not_mem_nil, or_false] at hd
      rcases hd with (rfl | rfl) | hd | (rfl | rfl) | hd
      · decide
      · decide
      · exact hhex n hd
      · decide
      · decide
      · exact hhex m hd

/-- Only a quote is escaped with a quote. -/
theorem EscapedAs.quote_notMem {c : Nat} {text : PyStr} (h : EscapedAs c text)
    (hc : c ≠ 34) : 34 ∉ text := by
  have hhex : ∀ n, 34 ∉ hex4 n := by
    intro n hd
    have := hex4_bounds hd
    omega
  cases h with
  | marked hmark => simp; omega
  | plain => simpa using hc.symm
  | letter e hlo hhi => simp; omega
  | short n => simp [hhex]
  | long n m => simp [hhex]

/-! ## Reading text back -/

theorem unescape_quote (rest : Bytes) : unescape (34 :: rest) = [] := by
  cases rest <;> rfl

theorem unescape_backslash (b : UInt8) (rest : Bytes) :
    unescape (92 :: b :: rest) = b :: unescape rest := by
  simp [unescape]

/-- Other bytes stand for themselves. -/
theorem unescape_cons {b : UInt8} (hquote : b ≠ 34) (hback : b ≠ 92) (rest : Bytes) :
    unescape (b :: rest) = b :: unescape rest := by
  cases rest with
  | nil => simp [unescape, hquote]
  | cons d ds => simp [unescape, hquote, hback]

/-- So do texts of such bytes. -/
theorem unescape_append {s : PyStr} (h : ∀ c ∈ s, c < 256 ∧ c ≠ 34 ∧ c ≠ 92) (rest : Bytes) :
    unescape (s.map UInt8.ofNat ++ rest) = s.map UInt8.ofNat ++ unescape rest := by
  induction s with
  | nil => rfl
  | cons c cs ih =>
      obtain ⟨hlt, hquote, hback⟩ := h c List.mem_cons_self
      have hne : ∀ d : Nat, d < 256 → c ≠ d → UInt8.ofNat c ≠ UInt8.ofNat d := by
        intro d hd hcd heq
        have := congrArg UInt8.toNat heq
        rw [ofNat_toNat_of_lt hlt, ofNat_toNat_of_lt hd] at this
        exact hcd this
      rw [List.map_cons, List.cons_append,
        unescape_cons (hne 34 (by decide) hquote) (hne 92 (by decide) hback),
        ih fun d hd => h d (List.mem_cons_of_mem c hd)]
      rfl

theorem unescape_hex4 (n : Nat) (rest : Bytes) :
    unescape ((hex4 n).map UInt8.ofNat ++ rest) =
      (hex4 n).map UInt8.ofNat ++ unescape rest := by
  refine unescape_append (fun d hd => ?_) rest
  have := hex4_bounds hd
  omega

/-- A code unit loses the backslash of its escape. -/
theorem unescape_unicode (n : Nat) (rest : Bytes) :
    unescape (([92, 117] ++ hex4 n).map UInt8.ofNat ++ rest) =
      ([117] ++ hex4 n).map UInt8.ofNat ++ unescape rest :=
  (unescape_backslash 117 _).trans (congrArg (List.cons 117) (unescape_hex4 n rest))

/-- What {lit}`extract_string` makes of an escaped character: it drops the backslashes of
escapes. -/
def readBackChar (c : Nat) : PyStr :=
  if c = 34 ∨ c = 92 then [c] else (escapeChar c).filter fun d => d != 92

/-- What {lit}`extract_string` makes of an escaped text. -/
def readBack (s : PyStr) : PyStr :=
  s.flatMap readBackChar

/-- Hexadecimal digits are no backslashes. -/
theorem filter_hex4 (n : Nat) : (hex4 n).filter (fun d => d != 92) = hex4 n := by
  refine List.filter_eq_self.mpr fun d hd => ?_
  have := hex4_bounds hd
  simp
  omega

/-- One escaped character is read back that way. -/
theorem unescape_escapeChar (c : Nat) (rest : Bytes) :
    unescape ((escapeChar c).map UInt8.ofNat ++ rest) =
      (readBackChar c).map UInt8.ofNat ++ unescape rest := by
  have hcases := escapeChar_cases c
  unfold readBackChar
  generalize escapeChar c = text at hcases
  cases hcases with
  | marked hc =>
      rw [if_pos hc]
      exact unescape_backslash _ _
  | plain hlo hhi hquote hback =>
      rw [if_neg (by omega)]
      have hfilter : [c].filter (fun d => d != 92) = [c] := by simp [hback]
      rw [hfilter]
      exact unescape_append (by simp; omega) rest
  | letter e hlo hhi hc =>
      rw [if_neg (by omega)]
      have hfilter : [92, e].filter (fun d => d != 92) = [e] := by
        simp
        omega
      rw [hfilter]
      exact unescape_backslash _ _
  | short n hc =>
      rw [if_neg (by omega), List.filter_append, filter_hex4]
      exact unescape_unicode n rest
  | long n m hc =>
      have hfilter : ([92, 117] ++ (hex4 n ++ ([92, 117] ++ hex4 m))).filter
          (fun d => d != 92) = ([117] ++ hex4 n) ++ ([117] ++ hex4 m) := by
        simp only [List.filter_append, filter_hex4]
        simp
      have hsplit : [92, 117] ++ (hex4 n ++ ([92, 117] ++ hex4 m)) =
          ([92, 117] ++ hex4 n) ++ ([92, 117] ++ hex4 m) := by simp
      rw [if_neg (by omega), hfilter, hsplit, List.map_append, List.append_assoc,
        unescape_unicode, unescape_unicode, ← List.append_assoc, ← List.map_append]

/-- **A printed text is read back** up to its closing quote. -/
theorem unescape_escaped (s : PyStr) (rest : Bytes) :
    unescape (escaped s ++ 34 :: rest) = (readBack s).map UInt8.ofNat := by
  induction s with
  | nil => exact unescape_quote rest
  | cons c cs ih =>
      rw [escaped_cons, List.append_assoc, unescape_escapeChar, ih]
      simp [readBack]

/-- Printable ASCII. -/
def Printable (s : PyStr) : Prop :=
  ∀ c ∈ s, 32 ≤ c ∧ c ≤ 126

instance (s : PyStr) : Decidable (Printable s) :=
  inferInstanceAs (Decidable (∀ c ∈ s, 32 ≤ c ∧ c ≤ 126))

/-- What is read back is printable. -/
theorem readBack_printable (s : PyStr) : Printable (readBack s) := by
  intro d hd
  obtain ⟨c, -, hdc⟩ := List.mem_flatMap.mp hd
  unfold readBackChar at hdc
  split at hdc
  · obtain rfl := List.mem_singleton.mp hdc
    omega
  · exact (escapeChar_cases c).printable (List.mem_of_mem_filter hdc)

/-- Printable text is read back as it is. -/
theorem readBack_of_printable {s : PyStr} (h : Printable s) : readBack s = s := by
  induction s with
  | nil => rfl
  | cons c cs ih =>
      have hc := h c List.mem_cons_self
      have hchar : readBackChar c = [c] := by
        have hcases := escapeChar_cases c
        unfold readBackChar
        generalize escapeChar c = text at hcases
        cases hcases with
        | marked hmark => rw [if_pos hmark]
        | plain hlo hhi hquote hback =>
            rw [if_neg (by omega)]
            simp [hback]
        | letter e hlo hhi hlt => omega
        | short n hno => exact absurd hc hno
        | long n m hno => exact absurd hc hno
      have hrest : readBack cs = cs := ih fun d hd => h d (List.mem_cons_of_mem c hd)
      rw [readBack, List.flatMap_cons, hchar, ← readBack, hrest]
      rfl

/-- Printable bytes are UTF-8 text. -/
theorem utf8Decode_printable {s : PyStr} (h : Printable s) :
    utf8Decode (s.map UInt8.ofNat) = some s := by
  have hnat : ∀ c ∈ s, (UInt8.ofNat c).toNat = c := fun c hc =>
    ofNat_toNat_of_lt (by have := h c hc; omega)
  have hid : (s.map UInt8.ofNat).map UInt8.toNat = s := by
    rw [List.map_map]
    exact (List.map_congr_left fun c hc => hnat c hc).trans (List.map_id s)
  rw [utf8Decode_ascii, hid]
  intro b hb
  obtain ⟨c, hc, rfl⟩ := List.mem_map.mp hb
  rw [hnat c hc]
  have := h c hc
  omega

/-- **What is read back is the text** exactly when the text is printable. -/
theorem readBack_decode_iff (s : PyStr) :
    utf8Decode ((readBack s).map UInt8.ofNat) = some s ↔ Printable s := by
  rw [utf8Decode_printable (readBack_printable s), Option.some.injEq]
  constructor
  · intro h
    rw [← h]
    exact readBack_printable s
  · exact readBack_of_printable

/-! ## Printed fields -/

/-- The keys that the extractor looks for. -/
inductive Key
  | protocolVersion
  | messageType
  | type
  | requestId
  | workerGeneration
  | artifactPath
  | servingDigest
  | errorCode
  | errorMessage
  | payloadLength
  | classCount
  | tensorSpec
  | shape
  | dtype
deriving DecidableEq, Repr

/-- The text of a key. -/
def Key.text : Key → String
  | .protocolVersion => "protocol_version"
  | .messageType => "message_type"
  | .type => "type"
  | .requestId => "request_id"
  | .workerGeneration => "worker_generation"
  | .artifactPath => "artifact_path"
  | .servingDigest => "serving_digest"
  | .errorCode => "error_code"
  | .errorMessage => "error_message"
  | .payloadLength => "payload_length"
  | .classCount => "class_count"
  | .tensorSpec => "tensor_spec"
  | .shape => "shape"
  | .dtype => "dtype"

/-- The bytes of a key. -/
abbrev Key.bytes (k : Key) : Bytes :=
  cstr k.text

/-- A printed field with the separator behind it: a text value, or anything else. -/
inductive Item
  | text (key : Key) (value : PyStr) (sep : Bytes)
  | raw (key : Key) (value : Bytes)

namespace Item

/-- The key of a field. -/
def key : Item → Key
  | .text key _ _ => key
  | .raw key _ => key

/-- What stands behind the colon and the space. -/
def value : Item → Bytes
  | .text _ value sep => 34 :: (escaped value ++ 34 :: sep)
  | .raw _ value => value

/-- A printed field. -/
def bytes (i : Item) : Bytes :=
  34 :: (i.key.bytes ++ 34 :: 58 :: 32 :: i.value)

/-- A separator has no quote and no colon, and is no word. -/
def Separates (sep : Bytes) : Prop :=
  34 ∉ sep ∧ 58 ∉ sep ∧ ∀ k : Key, sep ≠ k.bytes

/-- The separator has no quote and no colon. -/
def WellSeparated : Item → Prop
  | .text _ _ sep => Separates sep
  | .raw _ value => 34 ∉ value ∧ 58 ∉ value

end Item

/-- Printed fields, one behind the other. -/
def itemsText (items : List Item) : Bytes :=
  items.flatMap Item.bytes

/-- What stands behind the last quote of a text, printed. -/
def lastPiece : Bytes → PyStr → Bytes
  | piece, [] => piece
  | piece, c :: cs =>
      if c = 34 then lastPiece [] cs
      else lastPiece (piece ++ (escapeChar c).map UInt8.ofNat) cs

/-- A text value ends in a key behind a quote, or equals it. -/
def namesKey (value : PyStr) (k : Key) : Prop :=
  lastPiece [] value = k.bytes

instance (value : PyStr) (k : Key) : Decidable (namesKey value k) :=
  inferInstanceAs (Decidable (_ = _))

/-- The key bytes are letters. -/
theorem Key.quote_notMem (k : Key) : 34 ∉ k.bytes ∧ 58 ∉ k.bytes ∧ 92 ∉ k.bytes := by
  cases k <;> decide

theorem Key.bytes_injective {k l : Key} (h : k.bytes = l.bytes) : k = l := by
  cases k <;> cases l <;> first | rfl | exact absurd h (by decide)

/-- No quote is printed but for a quote. -/
theorem quote_notMem_escapeChar {c : Nat} (h : c ≠ 34) :
    (34 : UInt8) ∉ (escapeChar c).map UInt8.ofNat := by
  intro hmem
  obtain ⟨d, hd, heq⟩ := List.mem_map.mp hmem
  have hbounds := (escapeChar_cases c).printable hd
  have hd34 : d = 34 := by
    have := congrArg UInt8.toNat heq
    rwa [ofNat_toNat_of_lt (by omega)] at this
  exact (escapeChar_cases c).quote_notMem h (hd34 ▸ hd)

/-- **The search through a text value** stops when it names the key, and else goes on at
its closing quote. -/
theorem search_text (k : Key) (s : PyStr) {piece : Bytes} (hpiece : 34 ∉ piece)
    (rest : Bytes) :
    search (quoted k.bytes) (34 :: (piece ++ (escaped s ++ 34 :: rest))) =
      if lastPiece piece s = k.bytes then some (34 :: (k.bytes ++ 34 :: rest))
      else search (quoted k.bytes) (34 :: rest) := by
  obtain ⟨hkey, -, hback⟩ := k.quote_notMem
  induction s generalizing piece with
  | nil =>
      rw [escaped_nil, List.nil_append, search_enclosed_piece hkey hpiece]
      unfold lastPiece
      split
      · rename_i heq
        rw [heq]
      · rfl
  | cons c cs ih =>
      by_cases hc : c = 34
      · subst hc
        have hsplit : (34 : UInt8) :: (piece ++ (escaped (34 :: cs) ++ 34 :: rest)) =
            34 :: ((piece ++ [92]) ++ 34 :: (escaped cs ++ 34 :: rest)) := by
          rw [escaped_cons]
          simp [escapeChar, py]
        have hmark : piece ++ [92] ≠ k.bytes := by
          intro heq
          exact hback (heq ▸ by simp)
        have hnext : search (quoted k.bytes) (34 :: (escaped cs ++ 34 :: rest)) =
            if lastPiece [] cs = k.bytes then some (34 :: (k.bytes ++ 34 :: rest))
            else search (quoted k.bytes) (34 :: rest) := ih List.not_mem_nil
        rw [hsplit, search_enclosed_piece hkey (by simp [hpiece]), if_neg hmark, hnext]
        rfl
      · have hsplit : (34 : UInt8) :: (piece ++ (escaped (c :: cs) ++ 34 :: rest)) =
            34 :: ((piece ++ (escapeChar c).map UInt8.ofNat) ++ (escaped cs ++ 34 :: rest)) := by
          rw [escaped_cons]
          simp
        rw [hsplit, ih (by simp only [List.mem_append, not_or]
                           exact ⟨hpiece, quote_notMem_escapeChar hc⟩), lastPiece, if_neg hc]

/-! ## Looking up a key -/

namespace Item

/-- The value of a field ends in a key. -/
def names (k : Key) : Item → Bool
  | .text _ value _ => decide (namesKey value k)
  | .raw _ _ => false

/-- What stands behind the closing quote of a text value. -/
def sep : Item → Bytes
  | .text _ _ sep => sep
  | .raw _ _ => []

end Item

/-- Where the extractor finds a key. -/
def foundAt (k : Key) : List Item → Option Bytes
  | [] => none
  | i :: rest =>
      if i.key = k then some (itemsText (i :: rest))
      else if i.names k then some (34 :: (k.bytes ++ 34 :: (i.sep ++ itemsText rest)))
      else foundAt k rest

/-- The value of the next field, with what follows it. -/
def nextValue : List Item → Option Bytes
  | [] => none
  | i :: rest => some (i.value ++ itemsText rest)

/-- The value that the extractor takes for that of a key, with what follows it. -/
def foundValue (k : Key) : List Item → Option Bytes
  | [] => none
  | i :: rest =>
      if i.key = k then some (i.value ++ itemsText rest)
      else if i.names k then nextValue rest
      else foundValue k rest

theorem itemsText_cons (i : Item) (rest : List Item) :
    itemsText (i :: rest) =
      34 :: (i.key.bytes ++ 34 :: (58 :: 32 :: (i.value ++ itemsText rest))) := by
  simp [itemsText, Item.bytes]

/-- Behind a quote, the search goes on at the next field. -/
theorem search_next (k : Key) {piece : Bytes} (hpiece : 34 ∉ piece) (hne : piece ≠ k.bytes)
    (rest : List Item) :
    search (quoted k.bytes) (34 :: (piece ++ itemsText rest)) =
      search (quoted k.bytes) (itemsText rest) := by
  cases rest with
  | nil =>
      have hnil : itemsText [] = [] := rfl
      rw [hnil, List.append_nil, search_enclosed_last hpiece, search_enclosed_nil]
  | cons i more =>
      rw [itemsText_cons, search_enclosed_piece k.quote_notMem.1 hpiece, if_neg hne]

/-- **The search through printed fields.** -/
theorem search_items (k : Key) {items : List Item} (h : ∀ i ∈ items, i.WellSeparated) :
    search (quoted k.bytes) (itemsText items) = foundAt k items := by
  induction items with
  | nil => rfl
  | cons i rest ih =>
      obtain ⟨hquote, hcolon, -⟩ := k.quote_notMem
      have hrest := ih fun j hj => h j (List.mem_cons_of_mem i hj)
      have hcolon_ne : ∀ piece : Bytes, 58 ∈ piece → piece ≠ k.bytes := by
        rintro piece hmem rfl
        exact hcolon hmem
      rw [foundAt]
      by_cases hkey : i.key = k
      · rw [if_pos hkey, itemsText_cons, hkey, search_enclosed_piece hquote hquote, if_pos rfl]
      · have hne : i.key.bytes ≠ k.bytes := fun heq => hkey (Key.bytes_injective heq)
        rw [if_neg hkey, itemsText_cons, search_enclosed_piece hquote i.key.quote_notMem.1,
          if_neg hne]
        have hi := h i List.mem_cons_self
        cases i with
        | raw key value =>
            have hsplit : (34 : UInt8) :: 58 :: 32 :: ((Item.raw key value).value ++
                itemsText rest) = 34 :: ((58 :: 32 :: value) ++ itemsText rest) := rfl
            rw [hsplit, search_next k (by simpa using hi.1) (hcolon_ne _ (by simp)), hrest]
            rfl
        | text key value sep =>
            obtain ⟨hsepQuote, -, hsepKey⟩ := hi
            have hsplit : (34 : UInt8) :: 58 :: 32 :: ((Item.text key value sep).value ++
                itemsText rest) = 34 :: ([58, 32] ++ 34 :: ([] ++ (escaped value ++ 34 ::
                  (sep ++ itemsText rest)))) := by
              simp [Item.value]
            rw [hsplit, search_enclosed_piece hquote (by decide),
              if_neg (hcolon_ne _ (by decide)), search_text k value (by simp)]
            by_cases hnames : lastPiece [] value = k.bytes
            · have hdecided : (Item.text key value sep).names k = true := decide_eq_true hnames
              rw [if_pos hnames, if_pos hdecided]
              rfl
            · have hdecided : ¬ (Item.text key value sep).names k = true := by
                rw [Item.names, decide_eq_true_eq]
                exact hnames
              rw [if_neg hnames, if_neg hdecided, search_next k hsepQuote (hsepKey k), hrest]

/-- **The value behind the key.** -/
theorem searchOne_foundAt (k : Key) {items : List Item} (h : ∀ i ∈ items, i.WellSeparated) :
    (foundAt k items).bind (searchOne 58) =
      (foundValue k items).map fun value => 58 :: 32 :: value := by
  have hcolon : ∀ l : Key, ∀ more : Bytes, searchOne 58 (34 :: (l.bytes ++ 34 :: more)) =
      searchOne 58 more := by
    intro l more
    have hskip : (58 : UInt8) ∉ 34 :: (l.bytes ++ [34]) := by
      simp [l.quote_notMem.2.1]
    have hsplit : (34 : UInt8) :: (l.bytes ++ 34 :: more) = (34 :: (l.bytes ++ [34])) ++ more := by
      simp
    rw [hsplit, searchOne_append hskip]
  induction items with
  | nil => rfl
  | cons i rest ih =>
      rw [foundAt, foundValue]
      split
      · rw [itemsText_cons, Option.bind_some, hcolon, searchOne_cons_self]
        rfl
      · split
        · have hsep : (58 : UInt8) ∉ i.sep := by
            have hi := h i List.mem_cons_self
            cases i with
            | text key value sep => exact hi.2.1
            | raw key value => simp [Item.sep]
          rw [Option.bind_some, hcolon, searchOne_append hsep]
          cases rest with
          | nil => rfl
          | cons j more =>
              rw [itemsText_cons, hcolon, searchOne_cons_self]
              rfl
        · exact ih fun j hj => h j (List.mem_cons_of_mem i hj)

/-- The first place of a key in printed fields. -/
theorem find_items (k : Key) {items : List Item} (h : ∀ i ∈ items, i.WellSeparated) :
    find (quoted k.bytes) (123 :: itemsText items) = foundAt k items := by
  have hpiece : (34 : UInt8) ∉ [(123 : UInt8)] := by decide
  rw [← search_items k h]
  exact search_enclosed_skip hpiece

/-- **What the extractor reads for a key** in printed fields. -/
theorem fieldValue_items (k : Key) {items : List Item} (h : ∀ i ∈ items, i.WellSeparated) :
    fieldValue (123 :: itemsText items) k.bytes =
      (foundValue k items).map fun value => value.dropWhile isSpace := by
  unfold fieldValue
  rw [find_items k h]
  unfold findByte
  rw [searchOne_foundAt k h, Option.map_map]
  congr 1

/-- The search goes on behind a value that names another key. -/
theorem find_behind {k l : Key} (hne : l ≠ k) {sep : Bytes} (hsep : Item.Separates sep)
    {items : List Item} (h : ∀ i ∈ items, i.WellSeparated) :
    find (quoted k.bytes) (34 :: (l.bytes ++ 34 :: (sep ++ itemsText items))) =
      foundAt k items := by
  have hkey : l.bytes ≠ k.bytes := fun heq => hne (Key.bytes_injective heq)
  unfold find
  rw [search_enclosed_piece k.quote_notMem.1 l.quote_notMem.1, if_neg hkey,
    search_next k hsep.1 (hsep.2.2 k), search_items k h]

@[simp]
theorem foundAt_nil (k : Key) : foundAt k [] = none :=
  rfl

@[simp]
theorem foundAt_raw (k key : Key) (value : Bytes) (rest : List Item) :
    foundAt k (.raw key value :: rest) =
      if key = k then some (itemsText (.raw key value :: rest)) else foundAt k rest := by
  simp [foundAt, Item.key, Item.names]

@[simp]
theorem foundAt_text (k key : Key) (value : PyStr) (sep : Bytes) (rest : List Item) :
    foundAt k (.text key value sep :: rest) =
      if key = k then some (itemsText (.text key value sep :: rest))
      else if namesKey value k then some (34 :: (k.bytes ++ 34 :: (sep ++ itemsText rest)))
      else foundAt k rest := by
  simp [foundAt, Item.key, Item.names, Item.sep]

/-! ## Numbers and texts behind a key -/

/-- A comma and a space. -/
def comma : Bytes :=
  cstr ", "

/-- The closing brace. -/
def brace : Bytes :=
  cstr "\x7d"

/-- What {lit}`std::stoll` accepts. -/
def Word (z : Int) : Prop :=
  -2 ^ 63 ≤ z ∧ z < 2 ^ 63

instance (z : Int) : Decidable (Word z) :=
  inferInstanceAs (Decidable (_ ∧ _))

/-- The number that a value spells. -/
def asNumber (value : Bytes) : Option Int :=
  numberValue (value.dropWhile isSpace)

/-- The text that a value spells. -/
def asText (value : Bytes) : Bytes :=
  textValue (value.dropWhile isSpace)

/-- **The number that is read for a key**. -/
theorem extractInt64_items (k : Key) {items : List Item} (h : ∀ i ∈ items, i.WellSeparated) :
    extractInt64 (123 :: itemsText items) k.bytes = (foundValue k items).bind asNumber := by
  rw [extractInt64, fieldValue_items k h, Option.bind_map]
  rfl

/-- **The text that is read for a key**. -/
theorem extractString_items (k : Key) {items : List Item} (h : ∀ i ∈ items, i.WellSeparated) :
    extractString (123 :: itemsText items) k.bytes =
      ((foundValue k items).map asText).getD [] := by
  rw [extractString, fieldValue_items k h, Option.map_map]
  rfl

@[simp]
theorem foundValue_nil (k : Key) : foundValue k [] = none :=
  rfl

@[simp]
theorem foundValue_raw (k key : Key) (value : Bytes) (rest : List Item) :
    foundValue k (.raw key value :: rest) =
      if key = k then some (value ++ itemsText rest) else foundValue k rest := by
  simp [foundValue, Item.key, Item.value, Item.names]

@[simp]
theorem foundValue_text (k key : Key) (value : PyStr) (sep : Bytes) (rest : List Item) :
    foundValue k (.text key value sep :: rest) =
      if key = k then some (34 :: (escaped value ++ 34 :: (sep ++ itemsText rest)))
      else if namesKey value k then nextValue rest else foundValue k rest := by
  simp [foundValue, Item.key, Item.value, Item.names]

@[simp]
theorem nextValue_raw (key : Key) (value : Bytes) (rest : List Item) :
    nextValue (.raw key value :: rest) = some (value ++ itemsText rest) :=
  rfl

/-- A printed number is read as it was. -/
theorem asNumber_decimal {z : Int} (hz : Word z) {sep : UInt8} (hsep : endsNumber sep = true)
    (rest : Bytes) : asNumber (decimal z ++ sep :: rest) = some z := by
  rw [asNumber, dropWhile_isSpace (decimal_ne_nil z) (decimal_not_isSpace z)]
  exact numberValue_decimal hz.1 hz.2 hsep rest

/-- A number in front of a comma. -/
theorem asNumber_comma {z : Int} (hz : Word z) (rest : Bytes) :
    asNumber (decimal z ++ comma ++ rest) = some z := by
  rw [List.append_assoc]
  exact asNumber_decimal hz rfl _

/-- A number in front of the closing brace. -/
theorem asNumber_brace {z : Int} (hz : Word z) (rest : Bytes) :
    asNumber (decimal z ++ brace ++ rest) = some z := by
  rw [List.append_assoc]
  exact asNumber_decimal hz rfl _

/-- A printed list is no number. -/
theorem asNumber_bracket (rest : Bytes) : asNumber (91 :: rest) = none := by
  have hspace : ¬ isSpace 91 = true := by decide
  rw [asNumber, List.dropWhile_cons_of_neg hspace]
  exact numberValue_bracket rest

/-- A printed number is no text. -/
theorem asText_decimal (z : Int) (sep rest : Bytes) : asText (decimal z ++ sep ++ rest) = [] := by
  rw [asText, List.append_assoc, dropWhile_isSpace (decimal_ne_nil z) (decimal_not_isSpace z)]
  have hquote : (34 : UInt8) ∉ decimal z := notMem_decimal (by decide) (by decide) z
  cases hdecimal : decimal z with
  | nil => exact absurd hdecimal (decimal_ne_nil z)
  | cons b bs =>
      have hb : b ≠ 34 := by
        rintro rfl
        exact hquote (hdecimal ▸ List.mem_cons_self)
      simp [textValue, hb]

/-- A printed list is no text. -/
theorem asText_bracket (rest : Bytes) : asText (91 :: rest) = [] := by
  have hspace : ¬ isSpace 91 = true := by decide
  rw [asText, List.dropWhile_cons_of_neg hspace]
  rfl

/-- A printed text is read without the backslashes of its escapes. -/
theorem asText_escaped (s : PyStr) (rest : Bytes) :
    asText (34 :: (escaped s ++ 34 :: rest)) = (readBack s).map UInt8.ofNat := by
  have hspace : ¬ isSpace 34 = true := by decide
  rw [asText, List.dropWhile_cons_of_neg hspace]
  exact unescape_escaped s rest

end Native
end FrigateXdna
