import FrigateXdna.Python.Text

/-!
# Python floats

A Python {lit}`float` is an IEEE 754 binary64 value.  The modelled code only
parses floats out of JSON, truncates them with {lit}`int()`, compares them with
small integers and prints them again with {lit}`repr`; these four operations are
given here by exact integer arithmetic.
-/

namespace FrigateXdna
namespace Python

/-- A binary64 value.  A finite one is {lit}`± mant * 2 ^ exp` with
{lit}`mant < 2 ^ 53`. -/
inductive PyFloat
  | nan
  | inf (neg : Bool)
  | finite (neg : Bool) (mant : Nat) (exp : Int)
deriving DecidableEq, Repr

/-- Division rounded to the nearest integer, ties to even. -/
def divRoundEven (num den : Nat) : Nat :=
  let q := num / den
  let r := num % den
  if 2 * r < den then q
  else if den < 2 * r then q + 1
  else if q % 2 = 0 then q else q + 1

/-- {lit}`num / den * 2 ^ (-exp)` as a fraction of natural numbers. -/
def scaleBin (num den : Nat) (exp : Int) : Nat × Nat :=
  if 0 ≤ exp then (num, den * 2 ^ exp.toNat) else (num * 2 ^ (-exp).toNat, den)

/-- The exponent that brings a positive fraction between {lit}`2 ^ 52` and
{lit}`2 ^ 53`. -/
def fittedExp (num den : Nat) : Int :=
  let guess : Int := (Nat.log2 num : Int) - (Nat.log2 den : Int) - 52
  let scaled := scaleBin num den guess
  -- The quotient of the two logarithms is off by at most one binade.
  if scaled.1 < scaled.2 * 2 ^ 52 then guess - 1 else guess

/-- Carry a full mantissa into the exponent, and overflow to infinity. -/
def packBinary (neg : Bool) (mant : Nat) (exp : Int) : PyFloat :=
  if mant = 2 ^ 53 then
    if 970 < exp then .inf neg else .finite neg (2 ^ 52) (exp + 1)
  else if 971 < exp then .inf neg
  else .finite neg mant exp

/-- Nearest binary64 value of a positive fraction. -/
def roundBinary (neg : Bool) (num den : Nat) : PyFloat :=
  let exp := max (fittedExp num den) (-1074)
  let scaled := scaleBin num den exp
  packBinary neg (divRoundEven scaled.1 scaled.2) exp

/-- {lit}`float(text)` of a decimal literal {lit}`± digits * 10 ^ exp10`. -/
def PyFloat.ofDecimal (neg : Bool) (digits : Nat) (exp10 : Int) : PyFloat :=
  let magnitude := ((Nat.toDigits 10 digits).length : Int) + exp10
  if digits = 0 then .finite neg 0 0
  else if 310 < magnitude then .inf neg
  else if magnitude < -330 then .finite neg 0 0
  else if 0 ≤ exp10 then roundBinary neg (digits * 10 ^ exp10.toNat) 1
  else roundBinary neg digits (10 ^ (-exp10).toNat)

/-- {lit}`int(x)`: truncation, refusing infinities and NaN. -/
def PyFloat.toInt : PyFloat → Except PyExc Int
  | .nan => .error .valueError
  | .inf _ => .error .overflowError
  | .finite neg mant exp =>
      let whole : Nat :=
        if 0 ≤ exp then mant * 2 ^ exp.toNat else mant / 2 ^ (-exp).toNat
      .ok (if neg then -(whole : Int) else (whole : Int))

/-- Whether a float equals an integer. -/
def PyFloat.eqInt (x : PyFloat) (z : Int) : Bool :=
  match x with
  | .nan | .inf _ => false
  | .finite neg mant exp =>
      let signed : Int := if neg then -(mant : Int) else mant
      if 0 ≤ exp then signed * 2 ^ exp.toNat == z
      else signed == z * 2 ^ (-exp).toNat

/-! ## Printing -/

/-- Position of the decimal point of {lit}`num / den`: the least {lit}`p`, within
the given number of tries, with {lit}`num / den < 10 ^ p`. -/
def decimalPoint (num den : Nat) : Nat → Int → Int
  | 0, p => p
  | tries + 1, p =>
      let below := if 0 ≤ p then decide (num < den * 10 ^ p.toNat)
        else decide (num * 10 ^ (-p).toNat < den)
      if below then p else decimalPoint num den tries (p + 1)

/-- {lit}`num / den * 10 ^ shift` as a fraction of natural numbers. -/
def scaleDec (num den : Nat) (shift : Int) : Nat × Nat :=
  if 0 ≤ shift then (num * 10 ^ shift.toNat, den) else (num, den * 10 ^ (-shift).toNat)

/-- Shortest decimal digits that read back as the same float: tries one digit,
then two, up to seventeen, and of the two neighbours the nearer one first.  Below a
power of two the farther one may read back alone.  Returns the digits and the decimal
point. -/
def shortestDigits (neg : Bool) (num den : Nat) (p : Int) : Nat → Nat → Nat × Int
  | 0, width => (num * 10 ^ width / den, p)
  | tries + 1, width =>
      let shift := (width : Int) - p
      let scaled := scaleDec num den shift
      let near := divRoundEven scaled.1 scaled.2
      let far := if near * scaled.2 ≤ scaled.1 then near + 1 else near - 1
      let back (d : Nat) := decide (PyFloat.ofDecimal neg d (-shift) = roundBinary neg num den)
      let place (d : Nat) := if d = 10 ^ width then (1, p + 1) else (d, p)
      if back near then place near
      else if back far then place far
      else shortestDigits neg num den p tries (width + 1)

/-- Remove trailing zero digits. -/
def trimZeros (digits : PyStr) : PyStr :=
  (digits.reverse.dropWhile (· == 48)).reverse

/-- Lay out digits with the decimal point after position {lit}`p`, as
{lit}`repr` does: plain between 1e-4 and 1e16, with an exponent outside. -/
def layoutDigits (digits : PyStr) (p : Int) : PyStr :=
  if -4 < p ∧ p ≤ 16 then
    if p ≤ 0 then py "0." ++ List.replicate (-p).toNat 48 ++ digits
    else
      let whole := digits.take p.toNat
      let rest := digits.drop p.toNat
      whole ++ List.replicate (p.toNat - whole.length) 48 ++ [46] ++
        (if rest.isEmpty then [48] else rest)
  else
    let e := p - 1
    let expDigits := natDigits e.natAbs
    digits.take 1 ++ (if digits.length ≤ 1 then [] else 46 :: digits.drop 1) ++
      [101, if e < 0 then 45 else 43] ++
      (if expDigits.length < 2 then 48 :: expDigits else expDigits)

/-- {lit}`repr(x)` as JSON prints it. -/
def PyFloat.repr : PyFloat → PyStr
  | .nan => py "NaN"
  | .inf neg => if neg then py "-Infinity" else py "Infinity"
  | .finite neg mant exp =>
      let sign := if neg then [45] else []
      if mant = 0 then sign ++ py "0.0"
      else
        let (num, den) :=
          if 0 ≤ exp then (mant * 2 ^ exp.toNat, 1) else (mant, 2 ^ (-exp).toNat)
        let p := decimalPoint num den 700 (-330)
        let (d, p) := shortestDigits neg num den p 17 1
        sign ++ layoutDigits (trimZeros (natDigits d)) p

end Python
end FrigateXdna
