import Mathlib.Tactic.Linarith
import Mathlib.Data.List.Basic

/-!
# Python text, byte strings and integer literals

A Python {lit}`str` is a list of code points, lone surrogates included, so it is
modelled as a list of natural numbers rather than of Lean characters.  This file
gives the built-in exceptions the modelled code distinguishes, strict UTF-8
decoding, and the text form that {lit}`int()` accepts.

Main results:

- Definition {lit}`utf8Decode`: strict UTF-8, refusing overlong forms,
  surrogates and values above U+10FFFF.
- Definition {lit}`intOfStr`: {lit}`int(text)` with Unicode digits, single
  underscores, surrounding white space and the 4300-digit limit.
- Theorem {lit}`utf8Decode_ascii`: ASCII bytes decode to themselves.
-/

namespace FrigateXdna
namespace Python

/-! ## Built-in exceptions -/

/-- The built-in exception classes that the modelled code tells apart.  The last
one stands for {lit}`sqlite3.Error`. -/
inductive PyExc
  | valueError
  | overflowError
  | typeError
  | attributeError
  | recursionError
  | runtimeError
  | osError
  | timeoutError
  | blockingIOError
  | connectionError
  | databaseError
deriving DecidableEq, Repr

/-- {lit}`except OSError` also catches its built-in subclasses. -/
def PyExc.isOSError : PyExc → Bool
  | .osError | .timeoutError | .blockingIOError | .connectionError => true
  | _ => false

/-! ## Text -/

/-- A Python {lit}`str`: its code points. -/
abbrev PyStr := List Nat

/-- A Python {lit}`bytes` value. -/
abbrev Bytes := List UInt8

/-- The code points of a literal. -/
def py (s : String) : PyStr :=
  s.toList.map Char.toNat

/-- {lit}`text.startswith(head)`. -/
def startsWith (head s : PyStr) : Bool :=
  head.isPrefixOf s

/-- {lit}`text.endswith(tail)`. -/
def endsWith (tail s : PyStr) : Bool :=
  tail.isSuffixOf s

/-- {lit}`part in text`. -/
def contains (part : PyStr) : PyStr → Bool
  | [] => part.isPrefixOf []
  | c :: cs => part.isPrefixOf (c :: cs) || contains part cs

/-- {lit}`text.lower()` as far as ASCII output goes.  The capitals, the dotted
capital I and the Kelvin sign are the only code points whose lower case has an
ASCII letter, and the code compares lower-cased text with ASCII only. -/
def lower (s : PyStr) : PyStr :=
  s.flatMap fun c =>
    if 65 ≤ c ∧ c ≤ 90 then [c + 32]
    else if c = 0x130 then [105, 0x307]
    else if c = 0x212A then [107]
    else [c]

/-- Unicode white space above ASCII. -/
def wideSpaces : List Nat :=
  [0x85, 0xA0, 0x1680, 0x2000, 0x2001, 0x2002, 0x2003, 0x2004, 0x2005, 0x2006,
    0x2007, 0x2008, 0x2009, 0x200A, 0x2028, 0x2029, 0x202F, 0x205F, 0x3000]

/-- White space removed by {lit}`str.strip()`. -/
def isSpace (c : Nat) : Bool :=
  decide (9 ≤ c ∧ c ≤ 13 ∨ 28 ≤ c ∧ c ≤ 32) || wideSpaces.contains c

/-- {lit}`text.strip()`. -/
def strip (s : PyStr) : PyStr :=
  ((s.dropWhile isSpace).reverse.dropWhile isSpace).reverse

/-! ## UTF-8 -/

/-- Bounds of the byte after a UTF-8 lead byte, with the number of continuation
bytes and the payload bits of the lead byte. -/
def utf8Lead (b : Nat) : Option (Nat × Nat × Nat × Nat) :=
  if 0xC2 ≤ b ∧ b ≤ 0xDF then some (1, b - 0xC0, 0x80, 0xBF)
  else if b = 0xE0 then some (2, 0, 0xA0, 0xBF)
  else if 0xE1 ≤ b ∧ b ≤ 0xEC then some (2, b - 0xE0, 0x80, 0xBF)
  else if b = 0xED then some (2, 0x0D, 0x80, 0x9F)
  else if 0xEE ≤ b ∧ b ≤ 0xEF then some (2, b - 0xE0, 0x80, 0xBF)
  else if b = 0xF0 then some (3, 0, 0x90, 0xBF)
  else if 0xF1 ≤ b ∧ b ≤ 0xF3 then some (3, b - 0xF0, 0x80, 0xBF)
  else if b = 0xF4 then some (3, 4, 0x80, 0x8F)
  else none

/-- Strict UTF-8 decoding with {lit}`need` continuation bytes outstanding; the
next one must lie between {lit}`lo` and {lit}`hi`. -/
def utf8Go : Bytes → (need cp lo hi : Nat) → Option PyStr
  | [], 0, _, _, _ => some []
  | [], _ + 1, _, _, _ => none
  | b :: bs, 0, _, _, _ =>
      if b.toNat < 0x80 then (utf8Go bs 0 0 0 0).map (b.toNat :: ·)
      else
        match utf8Lead b.toNat with
        | none => none
        | some (need, cp, lo, hi) => utf8Go bs need cp lo hi
  | b :: bs, need + 1, cp, lo, hi =>
      if lo ≤ b.toNat ∧ b.toNat ≤ hi then
        let cp' := cp * 64 + (b.toNat - 0x80)
        if need = 0 then (utf8Go bs 0 0 0 0).map (cp' :: ·)
        else utf8Go bs need cp' 0x80 0xBF
      else none

/-- {lit}`data.decode()`; {lean}`none` is {lit}`UnicodeDecodeError`, a
{lit}`ValueError`. -/
def utf8Decode (data : Bytes) : Option PyStr :=
  utf8Go data 0 0 0 0

/-- Bytes below 0x80 decode to the code points of the same value. -/
theorem utf8Decode_ascii (data : Bytes) (h : ∀ b ∈ data, b.toNat < 0x80) :
    utf8Decode data = some (data.map UInt8.toNat) := by
  unfold utf8Decode
  induction data with
  | nil => rfl
  | cons b bs ih =>
      have hb : b.toNat < 0x80 := h b (by simp)
      have htail : utf8Go bs 0 0 0 0 = some (bs.map UInt8.toNat) :=
        ih (fun x hx => h x (by simp [hx]))
      simp [utf8Go, hb, htail]

/-! ## Integer literals -/

/-- First code points of the decimal digit ranges of Unicode. -/
def decimalZeros : List Nat :=
  [0x30, 0x660, 0x6F0, 0x7C0, 0x966, 0x9E6, 0xA66, 0xAE6, 0xB66, 0xBE6, 0xC66,
    0xCE6, 0xD66, 0xDE6, 0xE50, 0xED0, 0xF20, 0x1040, 0x1090, 0x17E0, 0x1810,
    0x1946, 0x19D0, 0x1A80, 0x1A90, 0x1B50, 0x1BB0, 0x1C40, 0x1C50, 0xA620,
    0xA8D0, 0xA900, 0xA9D0, 0xA9F0, 0xAA50, 0xABF0, 0xFF10, 0x104A0, 0x10D30,
    0x11066, 0x110F0, 0x11136, 0x111D0, 0x112F0, 0x11450, 0x114D0, 0x11650,
    0x116C0, 0x11730, 0x118E0, 0x11950, 0x11C50, 0x11D50, 0x11DA0, 0x11F50,
    0x16A60, 0x16AC0, 0x16B50, 0x1D7CE, 0x1D7D8, 0x1D7E2, 0x1D7EC, 0x1D7F6,
    0x1E140, 0x1E2F0, 0x1E4D0, 0x1E950, 0x1FBF0]

/-- Value of a decimal digit, of any script. -/
def decimalDigit? (c : Nat) : Option Nat :=
  decimalZeros.findSome? fun z => if z ≤ c ∧ c < z + 10 then some (c - z) else none

/-- {lit}`int()` accepts at most this many digits. -/
def maxIntDigits : Nat := 4300

/-- Digits with single underscores between them; {lit}`gap` says that a digit
must come next.  Returns the value and the number of digits. -/
def digitRun (gap : Bool) (acc count : Nat) : PyStr → Option (Nat × Nat)
  | [] => if gap then none else some (acc, count)
  | c :: cs =>
      if c = 95 then
        if gap then none else digitRun true acc count cs
      else
        match decimalDigit? c with
        | none => none
        | some d => digitRun false (acc * 10 + d) (count + 1) cs

/-- White space skipped by {lit}`int(text)`: the C locale blanks and the Unicode
ones above ASCII. -/
def isIntSpace (c : Nat) : Bool :=
  decide (9 ≤ c ∧ c ≤ 13 ∨ c = 32) || wideSpaces.contains c

/-- {lit}`int(text)`; {lean}`none` is {lit}`ValueError`. -/
def intOfStr (s : PyStr) : Option Int :=
  let body := ((s.dropWhile isIntSpace).reverse.dropWhile isIntSpace).reverse
  let (neg, digits) :=
    match body with
    | 43 :: rest => (false, rest)
    | 45 :: rest => (true, rest)
    | rest => (false, rest)
  match digitRun true 0 0 digits with
  | none => none
  | some (value, count) =>
      if maxIntDigits < count then none
      else some (if neg then -(value : Int) else (value : Int))

/-- Decimal digits of a natural number, most significant first. -/
def natDigits (n : Nat) : PyStr :=
  (Nat.toDigits 10 n).map Char.toNat

/-- {lit}`repr` of an integer. -/
def intRepr (z : Int) : PyStr :=
  if z < 0 then 45 :: natDigits z.natAbs else natDigits z.natAbs

/-! ## Printed integers -/

theorem natDigits_ne_nil (n : Nat) : natDigits n ≠ [] := by
  simp [natDigits, Nat.toDigits_ne_nil]

/-- Printed numbers consist of digits. -/
theorem natDigits_bounds {n c : Nat} (h : c ∈ natDigits n) : 48 ≤ c ∧ c ≤ 57 := by
  obtain ⟨d, hd, rfl⟩ := List.mem_map.mp h
  have hdigit := Nat.isDigit_of_mem_toDigits (by decide) (by decide) hd
  simp only [Char.isDigit, Bool.and_eq_true, decide_eq_true_eq] at hdigit
  exact ⟨UInt32.le_iff_toNat_le.mp hdigit.1, UInt32.le_iff_toNat_le.mp hdigit.2⟩

/-- The digits spell the number. -/
theorem natDigits_value (n : Nat) :
    (natDigits n).foldl (fun value c => 10 * value + (c - 48)) 0 = n := by
  have hdigits : Nat.ofDigitChars 10 (Nat.toDigits 10 n) 0 = n := Nat.ofDigitChars_ten_toDigits
  rw [Nat.ofDigitChars_eq_foldl] at hdigits
  rw [natDigits, List.foldl_map]
  exact hdigits

/-- Printed integers consist of digits behind at most one sign. -/
theorem intRepr_bounds {z : Int} {c : Nat} (h : c ∈ intRepr z) : c = 45 ∨ 48 ≤ c ∧ c ≤ 57 := by
  unfold intRepr at h
  split at h
  · rcases List.mem_cons.mp h with rfl | hmem
    · exact Or.inl rfl
    · exact Or.inr (natDigits_bounds hmem)
  · exact Or.inr (natDigits_bounds h)

end Python
end FrigateXdna
