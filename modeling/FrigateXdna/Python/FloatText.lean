import FrigateXdna.Python.Float

/-!
# Floats from texts

{lit}`float(text)`: blanks around the number, underscores between digits, digits of any script,
and the names of the special values in any letter case.

Main results:

- Definition {lit}`floatOfStr`: {lit}`float(text)`.
- Theorem {lit}`floatOfStr_eq_nan_iff`: which texts are read as NaN.
-/

namespace FrigateXdna
namespace Python

/-! ## Reading -/

/-- Lower case of an ASCII letter. -/
def asciiLower (c : Nat) : Nat :=
  if 65 ≤ c ∧ c ≤ 90 then c + 32 else c

/-- The text without its underscores; each must stand between two digits. -/
def dropUnderscores (prev : Nat) : PyStr → Option PyStr
  | [] => if prev = 95 then none else some []
  | c :: rest =>
      if c = 95 then
        if (decimalDigit? prev).isSome then dropUnderscores 95 rest else none
      else if prev = 95 ∧ (decimalDigit? c).isNone then none
      else (dropUnderscores c rest).map (c :: ·)

/-- The digits at the head of a text, and what is left. -/
def takeDigits : PyStr → List Nat × PyStr
  | [] => ([], [])
  | c :: rest =>
      match decimalDigit? c with
      | none => ([], c :: rest)
      | some d => ((d :: (takeDigits rest).1), (takeDigits rest).2)

/-- The number that digits spell. -/
def digitsValue (digits : List Nat) : Nat :=
  digits.foldl (fun value d => 10 * value + d) 0

/-- A sign at the head of a text, and what is left. -/
def takeSign : PyStr → Bool × PyStr
  | 43 :: rest => (false, rest)
  | 45 :: rest => (true, rest)
  | rest => (false, rest)

/-- The exponent that ends a decimal literal. -/
def exponentOf : PyStr → Option Int
  | [] => some 0
  | c :: rest =>
      if asciiLower c = 101 then
        let (neg, text) := takeSign rest
        match takeDigits text with
        | (d :: digits, []) =>
            let value : Int := digitsValue (d :: digits)
            some (if neg then -value else value)
        | _ => none
      else none

/-- A decimal literal without its sign. -/
def decimalOfStr (neg : Bool) (text : PyStr) : Option PyFloat :=
  let (whole, rest) := takeDigits text
  let (fraction, rest) :=
    match rest with
    | 46 :: more => takeDigits more
    | _ => ([], rest)
  if whole ++ fraction = [] then none
  else (exponentOf rest).map fun e =>
    .ofDecimal neg (digitsValue (whole ++ fraction)) (e - fraction.length)

/-- The text between the blanks. -/
def floatBody (text : PyStr) : PyStr :=
  ((text.dropWhile isIntSpace).reverse.dropWhile isIntSpace).reverse

/-- {lit}`float(text)`; {lean}`none` is {lit}`ValueError`. -/
def floatOfStr (text : PyStr) : Option PyFloat :=
  (dropUnderscores 0 (floatBody text)).bind fun body =>
    let (neg, number) := takeSign body
    let name := number.map asciiLower
    if name = py "nan" then some .nan
    else if name = py "inf" ∨ name = py "infinity" then some (.inf neg)
    else decimalOfStr neg number

/-! ## Comparisons -/

/-- Whether a float is below an integer. -/
def PyFloat.ltInt (x : PyFloat) (z : Int) : Bool :=
  match x with
  | .nan => false
  | .inf neg => neg
  | .finite neg mant exp =>
      let signed : Int := if neg then -(mant : Int) else mant
      if 0 ≤ exp then signed * 2 ^ exp.toNat < z
      else signed < z * 2 ^ (-exp).toNat

/-- Whether a float is above an integer. -/
def PyFloat.gtInt (x : PyFloat) (z : Int) : Bool :=
  match x with
  | .nan => false
  | .inf neg => !neg
  | .finite neg mant exp =>
      let signed : Int := if neg then -(mant : Int) else mant
      if 0 ≤ exp then z < signed * 2 ^ exp.toNat
      else z * 2 ^ (-exp).toNat < signed

/-- Whether a float is a number between two integers. -/
def PyFloat.Between (lo hi : Int) (x : PyFloat) : Prop :=
  x ≠ .nan ∧ x.ltInt lo = false ∧ x.gtInt hi = false

instance (lo hi : Int) (x : PyFloat) : Decidable (x.Between lo hi) :=
  inferInstanceAs (Decidable (_ ∧ _ ∧ _))

/-! ## Which texts are NaN -/

theorem packBinary_ne_nan (neg : Bool) (mant : Nat) (exp : Int) :
    packBinary neg mant exp ≠ .nan := by
  unfold packBinary
  split_ifs <;> simp

/-- A decimal literal is a number or overflows. -/
theorem ofDecimal_ne_nan (neg : Bool) (digits : Nat) (exp10 : Int) :
    PyFloat.ofDecimal neg digits exp10 ≠ .nan := by
  unfold PyFloat.ofDecimal roundBinary
  dsimp only
  split_ifs
  · simp
  · simp
  · simp
  · exact packBinary_ne_nan _ _ _
  · exact packBinary_ne_nan _ _ _

theorem decimalOfStr_ne_nan (neg : Bool) (text : PyStr) :
    decimalOfStr neg text ≠ some .nan := by
  intro h
  unfold decimalOfStr at h
  dsimp only at h
  generalize (match (takeDigits text).2 with
    | 46 :: more => takeDigits more
    | _ => ([], (takeDigits text).2)) = fraction at h
  split at h
  · contradiction
  · obtain ⟨e, -, he⟩ := Option.map_eq_some_iff.mp h
    exact ofDecimal_ne_nan _ _ _ he

/-- Text without underscores is left as it is. -/
theorem dropUnderscores_of_notMem {text : PyStr} (h : 95 ∉ text) {prev : Nat} (hprev : prev ≠ 95) :
    dropUnderscores prev text = some text := by
  induction text generalizing prev with
  | nil => simp [dropUnderscores, hprev]
  | cons c rest ih =>
      have hc : c ≠ 95 := fun e => h (e ▸ List.mem_cons_self)
      have hrest := ih (fun hmem => h (List.mem_cons_of_mem c hmem)) hc
      simp [dropUnderscores, hc, hprev, hrest]

/-- An underscore that is dropped leaves a digit before it and one behind it. -/
theorem eq_of_dropUnderscores {text body : PyStr} {prev : Nat}
    (h : dropUnderscores prev text = some body) (hbody : ∀ c ∈ body, decimalDigit? c = none)
    (hprev : decimalDigit? prev = none) (hne : prev ≠ 95) : body = text := by
  induction text generalizing prev body with
  | nil =>
      rw [dropUnderscores, if_neg hne] at h
      exact (Option.some.inj h).symm
  | cons c rest ih =>
      unfold dropUnderscores at h
      split at h
      · rw [hprev] at h
        contradiction
      · rename_i hc
        split at h
        · contradiction
        · obtain ⟨tail, htail, rfl⟩ := Option.map_eq_some_iff.mp h
          rw [ih htail (fun d hd => hbody d (List.mem_cons_of_mem c hd))
            (hbody c List.mem_cons_self) hc]

/-- The letters that are lower-cased to a letter of {lit}`nan`. -/
theorem of_asciiLower_nan {c : Nat} (h : asciiLower c ∈ py "nan") :
    c ∈ [78, 110, 65, 97] := by
  have hcases : asciiLower c = 110 ∨ asciiLower c = 97 ∨ asciiLower c = 110 := by
    simpa [py] using h
  unfold asciiLower at hcases
  simp only [List.mem_cons, List.not_mem_nil, or_false]
  split at hcases <;> omega

/-- The characters of a text that names NaN. -/
theorem mem_of_nan {body : PyStr} (h : (takeSign body).2.map asciiLower = py "nan") {c : Nat}
    (hc : c ∈ body) : c ∈ [43, 45, 78, 110, 65, 97] := by
  have hnumber : ∀ c ∈ (takeSign body).2, c ∈ [78, 110, 65, 97] := by
    intro d hd
    exact of_asciiLower_nan (h ▸ List.mem_map_of_mem hd)
  have hsplit : c = 43 ∨ c = 45 ∨ c ∈ (takeSign body).2 := by
    unfold takeSign
    split
    · rcases List.mem_cons.mp hc with rfl | hrest
      · exact Or.inl rfl
      · exact Or.inr (Or.inr hrest)
    · rcases List.mem_cons.mp hc with rfl | hrest
      · exact Or.inr (Or.inl rfl)
      · exact Or.inr (Or.inr hrest)
    · exact Or.inr (Or.inr hc)
  rcases hsplit with rfl | rfl | hmem
  · simp
  · simp
  · exact List.mem_cons_of_mem _ (List.mem_cons_of_mem _ (hnumber c hmem))

/-- **Which texts are read as NaN**: the name in any letter case, behind a sign perhaps,
between blanks. -/
theorem floatOfStr_eq_nan_iff (text : PyStr) :
    floatOfStr text = some .nan ↔
      (takeSign (floatBody text)).2.map asciiLower = py "nan" := by
  have hname : ∀ {body : PyStr}, (takeSign body).2.map asciiLower = py "nan" →
      ∀ c ∈ body, decimalDigit? c = none ∧ c ≠ 95 := by
    intro body h c hc
    have hall : ∀ c ∈ [43, 45, 78, 110, 65, 97], decimalDigit? c = none ∧ c ≠ 95 := by decide
    exact hall c (mem_of_nan h hc)
  constructor
  · intro h
    obtain ⟨body, hbody, hread⟩ := Option.bind_eq_some_iff.mp h
    dsimp only at hread
    split at hread
    · rename_i hnan
      have hdigits := hname hnan
      rwa [← eq_of_dropUnderscores hbody (fun c hc => (hdigits c hc).1) (by decide) (by decide)]
    · split at hread
      · have hfloat := Option.some.inj hread
        contradiction
      · exact absurd hread (decimalOfStr_ne_nan _ _)
  · intro h
    have hplain : 95 ∉ floatBody text := fun hmem => (hname h 95 hmem).2 rfl
    unfold floatOfStr
    rw [dropUnderscores_of_notMem hplain (by decide), Option.bind_some]
    dsimp only
    rw [if_pos h]

end Python
end FrigateXdna
