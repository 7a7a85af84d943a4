import FrigateXdna.Python.Float

/-!
# JSON as Python reads and writes it

The {lit}`json` module of the standard library: the values that
{lit}`json.loads` can return, the operations the modelled code applies to them
without looking at their type first, {lit}`json.dumps` with its default
separators, and {lit}`json.loads` itself with its non-standard constants, its
surrogate handling and its recursion limit.

Main results:

- Definition {lit}`dumps`: {lit}`json.dumps(value, sort_keys=True)`.
- Definition {lit}`loads`: {lit}`json.loads(data.decode())`.
- Theorem {lit}`Json.get_error_iff`: {lit}`.get` raises exactly on values that
  are not objects.
-/

namespace FrigateXdna
namespace Python

/-- What {lit}`json.loads` returns.  Objects keep the order of first insertion. -/
inductive Json
  | null
  | bool (b : Bool)
  | int (z : Int)
  | float (x : PyFloat)
  | str (s : PyStr)
  | arr (items : List Json)
  | obj (fields : List (PyStr × Json))

/-! ## Equality -/

mutual
/-- Equality of values is decidable. -/
def Json.decEq : (a b : Json) → Decidable (a = b)
  | .null, .null => isTrue rfl
  | .bool x, .bool y => decidable_of_iff (x = y) (by simp)
  | .int x, .int y => decidable_of_iff (x = y) (by simp)
  | .float x, .float y => decidable_of_iff (x = y) (by simp)
  | .str x, .str y => decidable_of_iff (x = y) (by simp)
  | .arr x, .arr y =>
      match decEqItems x y with
      | isTrue h => isTrue (h ▸ rfl)
      | isFalse h => isFalse fun e => h (Json.arr.inj e)
  | .obj x, .obj y =>
      match decEqFields x y with
      | isTrue h => isTrue (h ▸ rfl)
      | isFalse h => isFalse fun e => h (Json.obj.inj e)
  | .null, .bool _ | .null, .int _ | .null, .float _ | .null, .str _ | .null, .arr _
  | .null, .obj _ | .bool _, .null | .bool _, .int _ | .bool _, .float _
  | .bool _, .str _ | .bool _, .arr _ | .bool _, .obj _ | .int _, .null
  | .int _, .bool _ | .int _, .float _ | .int _, .str _ | .int _, .arr _
  | .int _, .obj _ | .float _, .null | .float _, .bool _ | .float _, .int _
  | .float _, .str _ | .float _, .arr _ | .float _, .obj _ | .str _, .null
  | .str _, .bool _ | .str _, .int _ | .str _, .float _ | .str _, .arr _
  | .str _, .obj _ | .arr _, .null | .arr _, .bool _ | .arr _, .int _
  | .arr _, .float _ | .arr _, .str _ | .arr _, .obj _ | .obj _, .null
  | .obj _, .bool _ | .obj _, .int _ | .obj _, .float _ | .obj _, .str _
  | .obj _, .arr _ => isFalse (by simp)

/-- Equality of the items of two lists. -/
def decEqItems : (a b : List Json) → Decidable (a = b)
  | [], [] => isTrue rfl
  | [], _ :: _ | _ :: _, [] => isFalse (by simp)
  | x :: xs, y :: ys =>
      match Json.decEq x y, decEqItems xs ys with
      | isTrue h, isTrue hs => isTrue (by rw [h, hs])
      | isFalse h, _ => isFalse fun e => h (List.cons.inj e).1
      | _, isFalse hs => isFalse fun e => hs (List.cons.inj e).2

/-- Equality of the fields of two dictionaries. -/
def decEqFields : (a b : List (PyStr × Json)) → Decidable (a = b)
  | [], [] => isTrue rfl
  | [], _ :: _ | _ :: _, [] => isFalse (by simp)
  | (k, x) :: xs, (l, y) :: ys =>
      match decEq k l, Json.decEq x y, decEqFields xs ys with
      | isTrue hk, isTrue h, isTrue hs => isTrue (by rw [hk, h, hs])
      | isFalse hk, _, _ => isFalse fun e => hk (Prod.mk.inj (List.cons.inj e).1).1
      | _, isFalse h, _ => isFalse fun e => h (Prod.mk.inj (List.cons.inj e).1).2
      | _, _, isFalse hs => isFalse fun e => hs (List.cons.inj e).2
end

instance : DecidableEq Json := Json.decEq

/-! ## Operations on values of unknown type -/

/-- The value of a key in an insertion-ordered dictionary. -/
def lookupField (key : PyStr) : List (PyStr × Json) → Option Json
  | [] => none
  | (k, v) :: rest => if k = key then some v else lookupField key rest

/-- {lit}`d[key] = value`: an existing key keeps its place. -/
def setField (key : PyStr) (value : Json) : List (PyStr × Json) → List (PyStr × Json)
  | [] => [(key, value)]
  | (k, v) :: rest =>
      if k = key then (k, value) :: rest else (k, v) :: setField key value rest

/-- {lit}`value.get(key)`: only dictionaries have it. -/
def Json.get (j : Json) (key : PyStr) : Except PyExc Json :=
  match j with
  | .obj fields => .ok ((lookupField key fields).getD .null)
  | _ => .error .attributeError

/-- Whether a value is a dictionary. -/
def Json.isObj : Json → Bool
  | .obj _ => true
  | _ => false

/-- {lit}`key in value`: membership of a dictionary's keys or of a list's items,
a substring test on text, and a type error on everything else. -/
def Json.hasKey (j : Json) (key : PyStr) : Except PyExc Bool :=
  match j with
  | .obj fields => .ok (lookupField key fields).isSome
  | .arr items => .ok (items.any fun
      | .str s => s == key
      | _ => false)
  | .str s => .ok (contains key s)
  | _ => .error .typeError

/-- {lit}`bool(value)`. -/
def Json.truthy : Json → Bool
  | .null => false
  | .bool b => b
  | .int z => z != 0
  | .float x => !x.eqInt 0
  | .str s => !s.isEmpty
  | .arr items => !items.isEmpty
  | .obj fields => !fields.isEmpty

/-- {lit}`value == z` for an integer constant. -/
def Json.eqInt (j : Json) (z : Int) : Bool :=
  match j with
  | .bool b => (if b then (1 : Int) else 0) == z
  | .int w => w == z
  | .float x => x.eqInt z
  | _ => false

/-- {lit}`value == text` for a text constant. -/
def Json.eqStr (j : Json) (s : PyStr) : Bool :=
  match j with
  | .str t => t == s
  | _ => false

/-- {lit}`int(value)`. -/
def Json.toInt : Json → Except PyExc Int
  | .bool b => .ok (if b then 1 else 0)
  | .int z => .ok z
  | .float x => x.toInt
  | .str s =>
      match intOfStr s with
      | some z => .ok z
      | none => .error .valueError
  | .null | .arr _ | .obj _ => .error .typeError

/-- {lit}`.get` raises exactly on values that are not dictionaries. -/
theorem Json.get_error_iff (j : Json) (key : PyStr) :
    (∃ e, j.get key = .error e) ↔ j.isObj = false := by
  cases j <;> simp [Json.get, Json.isObj]

/-- A value that has {lit}`.get` is a dictionary. -/
theorem Json.exists_obj_of_get {j v : Json} {key : PyStr} (h : j.get key = .ok v) :
    ∃ fields, j = .obj fields := by
  cases j with
  | obj fields => exact ⟨fields, rfl⟩
  | _ => simp [Json.get] at h

/-! ## Writing -/

/-- Four lower-case hexadecimal digits. -/
def hex4 (n : Nat) : PyStr :=
  [n / 4096 % 16, n / 256 % 16, n / 16 % 16, n % 16].map fun d =>
    if d < 10 then 48 + d else 87 + d

/-- One code point of a JSON string, in ASCII. -/
def escapeChar (c : Nat) : PyStr :=
  if c = 34 then py "\\\""
  else if c = 92 then py "\\\\"
  else if c = 10 then py "\\n"
  else if c = 13 then py "\\r"
  else if c = 9 then py "\\t"
  else if c = 12 then py "\\f"
  else if c = 8 then py "\\b"
  else if 32 ≤ c ∧ c ≤ 126 then [c]
  else if c < 0x10000 then py "\\u" ++ hex4 c
  else
    py "\\u" ++ hex4 (0xD800 + (c - 0x10000) / 0x400) ++
      py "\\u" ++ hex4 (0xDC00 + (c - 0x10000) % 0x400)

/-- A JSON string literal. -/
def quote (s : PyStr) : PyStr :=
  34 :: s.flatMap escapeChar ++ [34]

/-- Lexicographic order on text, by code point. -/
def leStr : PyStr → PyStr → Bool
  | [], _ => true
  | _ :: _, [] => false
  | a :: as, b :: bs => if a = b then leStr as bs else decide (a < b)

@[simp]
theorem leStr_refl (s : PyStr) : leStr s s = true := by
  induction s with
  | nil => rfl
  | cons a as ih => simp [leStr, ih]

/-- Of two texts, one comes first. -/
theorem leStr_total (s t : PyStr) : leStr s t = true ∨ leStr t s = true := by
  induction s generalizing t with
  | nil => exact Or.inl rfl
  | cons a as ih =>
      cases t with
      | nil => exact Or.inr rfl
      | cons b bs =>
          by_cases h : a = b
          · subst h
            simpa [leStr] using ih bs
          · have hlt : a < b ∨ b < a := Nat.lt_or_gt_of_ne h
            simpa only [leStr, h, Ne.symm h, if_false, decide_eq_true_eq] using hlt

/-- Two texts that come before each other are the same. -/
theorem leStr_antisymm {s t : PyStr} (hst : leStr s t = true) (hts : leStr t s = true) :
    s = t := by
  induction s generalizing t with
  | nil =>
      cases t with
      | nil => rfl
      | cons b bs => contradiction
  | cons a as ih =>
      cases t with
      | nil => contradiction
      | cons b bs =>
          by_cases h : a = b
          · subst h
            simp only [leStr, if_true] at hst hts
            rw [ih hst hts]
          · simp only [leStr, h, Ne.symm h, if_false, decide_eq_true_eq] at hst hts
            omega

/-- The order on texts is transitive. -/
theorem leStr_trans {s t u : PyStr} (hst : leStr s t = true) (htu : leStr t u = true) :
    leStr s u = true := by
  induction s generalizing t u with
  | nil => rfl
  | cons a as ih =>
      cases t with
      | nil => contradiction
      | cons b bs =>
          cases u with
          | nil => contradiction
          | cons c cs =>
              by_cases hab : a = b
              · subst hab
                by_cases hac : a = c
                · subst hac
                  simp only [leStr, if_true] at hst htu ⊢
                  exact ih hst htu
                · simpa [leStr, hac] using htu
              · by_cases hbc : b = c
                · subst hbc
                  simpa [leStr, hab] using hst
                · simp only [leStr, hab, hbc, if_false, decide_eq_true_eq] at hst htu
                  have hac : a ≠ c := by omega
                  simp only [leStr, hac, if_false, decide_eq_true_eq]
                  omega

/-- Insert a field into fields sorted by key. -/
def insertField (f : PyStr × PyStr) : List (PyStr × PyStr) → List (PyStr × PyStr)
  | [] => [f]
  | g :: rest => if leStr f.1 g.1 then f :: g :: rest else g :: insertField f rest

/-- Join texts with a separator. -/
def joinStr (sep : PyStr) : List PyStr → PyStr
  | [] => []
  | [s] => s
  | s :: t :: rest => s ++ sep ++ joinStr sep (t :: rest)

/-- The text of an object with printed values; keys are sorted. -/
def printObj (fields : List (PyStr × PyStr)) : PyStr :=
  123 :: joinStr (py ", ")
    ((fields.foldr insertField []).map fun f => quote f.1 ++ py ": " ++ f.2) ++ [125]

mutual

/-- {lit}`json.dumps(value, sort_keys=True)`. -/
def dumps : Json → PyStr
  | .null => py "null"
  | .bool b => if b then py "true" else py "false"
  | .int z => intRepr z
  | .float x => x.repr
  | .str s => quote s
  | .arr items => 91 :: joinStr (py ", ") (dumpsList items) ++ [93]
  | .obj fields => printObj (dumpsFields fields)

/-- The texts of the items of an array. -/
def dumpsList : List Json → List PyStr
  | [] => []
  | j :: rest => dumps j :: dumpsList rest

/-- The keys of an object with the texts of its values. -/
def dumpsFields : List (PyStr × Json) → List (PyStr × PyStr)
  | [] => []
  | (k, v) :: rest => (k, dumps v) :: dumpsFields rest

end

/-! ## Reading -/

/-- Value of a hexadecimal digit. -/
def hexDigit? (c : Nat) : Option Nat :=
  if 48 ≤ c ∧ c ≤ 57 then some (c - 48)
  else if 97 ≤ c ∧ c ≤ 102 then some (c - 87)
  else if 65 ≤ c ∧ c ≤ 70 then some (c - 55)
  else none

/-- The code unit of a {lit}`\uXXXX` escape. -/
def hexUnit? (a b c d : Nat) : Option Nat := do
  let w ← hexDigit? a
  let x ← hexDigit? b
  let y ← hexDigit? c
  let z ← hexDigit? d
  pure (w * 4096 + x * 256 + y * 16 + z)

/-- The character of a one-letter escape. -/
def simpleEscape? (c : Nat) : Option Nat :=
  if c = 34 ∨ c = 92 ∨ c = 47 then some c
  else if c = 98 then some 8
  else if c = 102 then some 12
  else if c = 110 then some 10
  else if c = 114 then some 13
  else if c = 116 then some 9
  else none

/-- Pair up escaped surrogates; an unpaired one stays. -/
def joinSurrogates : PyStr → PyStr
  | [] => []
  | [c] => [c]
  | c :: d :: rest =>
      if 0xD800 ≤ c ∧ c < 0xDC00 ∧ 0xDC00 ≤ d ∧ d < 0xE000 then
        (0x10000 + (c - 0xD800) * 0x400 + (d - 0xDC00)) :: joinSurrogates rest
      else c :: joinSurrogates (d :: rest)

/-- The code units of a string literal after its opening quote, and the text
after its closing quote. -/
def scanString : PyStr → Option (PyStr × PyStr)
  | [] => none
  | 92 :: 117 :: a :: b :: c :: d :: rest =>
      match hexUnit? a b c d with
      | none => none
      | some u => (scanString rest).map fun r => (u :: r.1, r.2)
  | 92 :: e :: rest =>
      match simpleEscape? e with
      | none => none
      | some u => (scanString rest).map fun r => (u :: r.1, r.2)
  | c :: rest =>
      if c = 34 then some ([], rest)
      else if c = 92 ∨ c < 32 then none
      else (scanString rest).map fun r => (c :: r.1, r.2)

/-- ASCII digits at the head of a text: their value, their number, the rest. -/
def scanDigits (acc count : Nat) : PyStr → Nat × Nat × PyStr
  | [] => (acc, count, [])
  | c :: rest =>
      if 48 ≤ c ∧ c ≤ 57 then scanDigits (acc * 10 + (c - 48)) (count + 1) rest
      else (acc, count, c :: rest)

/-- The fraction of a number: digits, their number and the rest; without a digit
after the point there is no fraction. -/
def scanFraction (whole : Nat) : PyStr → Nat × Nat × PyStr
  | 46 :: rest =>
      let (value, count, after) := scanDigits whole 0 rest
      if count = 0 then (whole, 0, 46 :: rest) else (value, count, after)
  | s => (whole, 0, s)

/-- The exponent of a number, when it has digits. -/
def scanExponent (s : PyStr) : Option (Int × PyStr) :=
  match s with
  | e :: rest =>
      if e = 101 ∨ e = 69 then
        let (neg, body) :=
          match rest with
          | 43 :: more => (false, more)
          | 45 :: more => (true, more)
          | more => (false, more)
        let (value, count, after) := scanDigits 0 0 body
        if count = 0 then none
        else some (if neg then -(value : Int) else (value : Int), after)
      else none
  | [] => none

/-- A number without its sign: an integer unless it has a fraction or an
exponent.  Integers of more than 4300 digits are a {lit}`ValueError`. -/
def scanNumber (neg : Bool) (s : PyStr) : Option (Json × PyStr) :=
  let integer : Option (Nat × Nat × PyStr) :=
    match s with
    | 48 :: rest => some (0, 1, rest)
    | c :: rest => if 49 ≤ c ∧ c ≤ 57 then some (scanDigits 0 0 (c :: rest)) else none
    | [] => none
  match integer with
  | none => none
  | some (whole, count, afterInt) =>
      let (digits, fractionLen, afterFrac) := scanFraction whole afterInt
      match scanExponent afterFrac with
      | some (e, after) =>
          some (.float (.ofDecimal neg digits (e - fractionLen)), after)
      | none =>
          if fractionLen ≠ 0 then
            some (.float (.ofDecimal neg digits (-(fractionLen : Int))), afterFrac)
          else if maxIntDigits < count then none
          else some (.int (if neg then -(whole : Int) else (whole : Int)), afterInt)

/-- White space between JSON tokens. -/
def skipBlank (s : PyStr) : PyStr :=
  s.dropWhile fun c => c == 32 || c == 9 || c == 10 || c == 13

/-- Drop a literal from the head of a text. -/
def dropLit? (lit s : PyStr) : Option PyStr :=
  if startsWith lit s then some (s.drop lit.length) else none

/-- The constants and numbers, which need no recursion. -/
def scanAtom (s : PyStr) : Option (Json × PyStr) :=
  match dropLit? (py "null") s, dropLit? (py "true") s, dropLit? (py "false") s,
      dropLit? (py "NaN") s, dropLit? (py "Infinity") s, dropLit? (py "-Infinity") s with
  | some r, _, _, _, _, _ => some (.null, r)
  | _, some r, _, _, _, _ => some (.bool true, r)
  | _, _, some r, _, _, _ => some (.bool false, r)
  | _, _, _, some r, _, _ => some (.float .nan, r)
  | _, _, _, _, some r, _ => some (.float (.inf false), r)
  | _, _, _, _, _, some r => some (.float (.inf true), r)
  | none, none, none, none, none, none =>
      match s with
      | 45 :: rest => scanNumber true rest
      | _ => scanNumber false s

mutual

/-- One value.  {lit}`depth` is what is left of the recursion limit; entering a
container without any left is a {lit}`RecursionError`.  {lit}`fuel` bounds the
number of nested calls and exceeds the length of every text that is read. -/
def scanValue (fuel depth : Nat) (s : PyStr) : Except PyExc (Json × PyStr) :=
  match fuel with
  | 0 => .error .valueError
  | fuel + 1 =>
      match s with
      | 34 :: rest =>
          match scanString rest with
          | none => .error .valueError
          | some (units, after) => .ok (.str (joinSurrogates units), after)
      | 91 :: rest =>
          match depth with
          | 0 => .error .recursionError
          | depth + 1 =>
              match skipBlank rest with
              | 93 :: after => .ok (.arr [], after)
              | body =>
                  match scanItems fuel depth body with
                  | .error e => .error e
                  | .ok (items, after) => .ok (.arr items, after)
      | 123 :: rest =>
          match depth with
          | 0 => .error .recursionError
          | depth + 1 =>
              match skipBlank rest with
              | 125 :: after => .ok (.obj [], after)
              | body =>
                  match scanFields fuel depth [] body with
                  | .error e => .error e
                  | .ok (fields, after) => .ok (.obj fields, after)
      | _ =>
          match scanAtom s with
          | none => .error .valueError
          | some r => .ok r

/-- The items of a nonempty array up to its closing bracket. -/
def scanItems (fuel depth : Nat) (s : PyStr) : Except PyExc (List Json × PyStr) :=
  match fuel with
  | 0 => .error .valueError
  | fuel + 1 =>
      match scanValue fuel depth s with
      | .error e => .error e
      | .ok (j, after) =>
          match skipBlank after with
          | 93 :: rest => .ok ([j], rest)
          | 44 :: rest =>
              match scanItems fuel depth (skipBlank rest) with
              | .error e => .error e
              | .ok (items, rest') => .ok (j :: items, rest')
          | _ => .error .valueError

/-- The fields of a nonempty object up to its closing brace; a repeated key
overwrites. -/
def scanFields (fuel depth : Nat) (seen : List (PyStr × Json)) (s : PyStr) :
    Except PyExc (List (PyStr × Json) × PyStr) :=
  match fuel with
  | 0 => .error .valueError
  | fuel + 1 =>
      match s with
      | 34 :: rest =>
          match scanString rest with
          | none => .error .valueError
          | some (units, after) =>
              match skipBlank after with
              | 58 :: body =>
                  match scanValue fuel depth (skipBlank body) with
                  | .error e => .error e
                  | .ok (j, after') =>
                      let fields := setField (joinSurrogates units) j seen
                      match skipBlank after' with
                      | 125 :: rest' => .ok (fields, rest')
                      | 44 :: rest' => scanFields fuel depth fields (skipBlank rest')
                      | _ => .error .valueError
              | _ => .error .valueError
      | _ => .error .valueError

end

/-- {lit}`json.loads(text)` with the given recursion limit. -/
def loadsText (limit : Nat) (s : PyStr) : Except PyExc Json :=
  match scanValue (2 * s.length + 2) limit (skipBlank s) with
  | .error e => .error e
  | .ok (j, after) => if (skipBlank after).isEmpty then .ok j else .error .valueError

/-- {lit}`json.loads(data.decode())`; a decoding error is a {lit}`ValueError`. -/
def loads (limit : Nat) (data : Bytes) : Except PyExc Json :=
  match utf8Decode data with
  | none => .error .valueError
  | some s => loadsText limit s

end Python
end FrigateXdna
