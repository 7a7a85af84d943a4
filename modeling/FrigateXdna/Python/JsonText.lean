import Mathlib.Data.List.Sort
import FrigateXdna.Python.FloatRepr

/-!
# Printed JSON reads back

What {lit}`json.loads` makes of a text that {lit}`json.dumps` wrote: the same value, with its
keys in order, except that two adjacent surrogates in a text come back as one character.

Main results:

- Structure {lit}`JsonStyle`: how a printer escapes characters and separates items.
- Theorem {lit}`scanValue_print`: a printed value is scanned.
- Theorem {lit}`loadsText_dumps`: a printed value is loaded.
- Theorem {lit}`reread_eq_sorted_iff`: when it comes back as it was.
- Theorem {lit}`dumps_plain`: {lit}`json.dumps` writes printable ASCII.
-/

namespace FrigateXdna
namespace Python

/-! ## Surrogates -/

/-- Whether a code unit is a high surrogate followed by a low one. -/
def SurrogatePair (c d : Nat) : Prop :=
  0xD800 ≤ c ∧ c < 0xDC00 ∧ 0xDC00 ≤ d ∧ d < 0xE000

instance (c d : Nat) : Decidable (SurrogatePair c d) :=
  inferInstanceAs (Decidable (_ ∧ _ ∧ _ ∧ _))

/-- No high surrogate is directly followed by a low one. -/
def Unpaired (s : PyStr) : Prop :=
  s.IsChain fun c d => ¬ SurrogatePair c d

instance (s : PyStr) : Decidable (Unpaired s) :=
  inferInstanceAs (Decidable (s.IsChain _))

theorem joinSurrogates_cons_of_not {c d : Nat} (h : ¬ SurrogatePair c d) (rest : PyStr) :
    joinSurrogates (c :: d :: rest) = c :: joinSurrogates (d :: rest) := by
  rw [joinSurrogates]
  exact if_neg h

/-- A surrogate pair becomes one character. -/
theorem joinSurrogates_cons_of_pair {c d : Nat} (h : SurrogatePair c d) (rest : PyStr) :
    joinSurrogates (c :: d :: rest) =
      (0x10000 + (c - 0xD800) * 0x400 + (d - 0xDC00)) :: joinSurrogates rest := by
  rw [joinSurrogates]
  exact if_pos h

/-- Pairing up shortens a text. -/
theorem joinSurrogates_length (s : PyStr) : (joinSurrogates s).length ≤ s.length := by
  induction s using joinSurrogates.induct with
  | case1 => exact Nat.le_refl 0
  | case2 c => exact Nat.le_refl 1
  | case3 c d rest h ih =>
      rw [joinSurrogates_cons_of_pair h]
      simp only [List.length_cons]
      omega
  | case4 c d rest h ih =>
      rw [joinSurrogates_cons_of_not h]
      simp only [List.length_cons] at ih ⊢
      omega

/-- A text without a surrogate pair stays as it is, and no other does. -/
theorem joinSurrogates_eq_self_iff (s : PyStr) : joinSurrogates s = s ↔ Unpaired s := by
  unfold Unpaired
  induction s using joinSurrogates.induct with
  | case1 => simp [joinSurrogates]
  | case2 c => simp [joinSurrogates]
  | case3 c d rest h ih =>
      rw [joinSurrogates_cons_of_pair h]
      have hlen := joinSurrogates_length rest
      constructor
      · intro heq
        have := congrArg List.length heq
        simp only [List.length_cons] at this
        omega
      · intro hchain
        exact absurd h (List.isChain_cons_cons.mp hchain).1
  | case4 c d rest h ih =>
      rw [joinSurrogates_cons_of_not h, List.cons.injEq, ih, List.isChain_cons_cons]
      exact ⟨fun hrest => ⟨h, hrest.2⟩, fun hrest => ⟨rfl, hrest.2⟩⟩

/-- The code units of a character in an ASCII string literal. -/
def utf16Units (c : Nat) : PyStr :=
  if c < 0x10000 then [c]
  else [0xD800 + (c - 0x10000) / 0x400, 0xDC00 + (c - 0x10000) % 0x400]

/-- A code point. -/
def IsCodePoint (c : Nat) : Prop :=
  c < 0x110000

instance (c : Nat) : Decidable (IsCodePoint c) :=
  inferInstanceAs (Decidable (_ < _))

/-- The units of a character do not complete what stands before them. -/
theorem joinSurrogates_cons_units {c d : Nat} (h : ¬ SurrogatePair c d) (hd : IsCodePoint d)
    (rest : PyStr) :
    joinSurrogates (c :: (utf16Units d ++ rest)) =
      c :: joinSurrogates (utf16Units d ++ rest) := by
  unfold utf16Units
  split
  · exact joinSurrogates_cons_of_not h rest
  · refine joinSurrogates_cons_of_not (fun hpair => ?_) _
    obtain ⟨-, -, hlow, -⟩ := hpair
    have hd' : d < 0x110000 := hd
    omega

/-- A character that takes two units comes back. -/
theorem joinSurrogates_wide {c : Nat} (hc : IsCodePoint c) (hwide : ¬ c < 0x10000)
    (rest : PyStr) :
    joinSurrogates (utf16Units c ++ rest) = c :: joinSurrogates rest := by
  have hc' : c < 0x110000 := hc
  have hpair : SurrogatePair (0xD800 + (c - 0x10000) / 0x400)
      (0xDC00 + (c - 0x10000) % 0x400) := by
    refine ⟨?_, ?_, ?_, ?_⟩ <;> omega
  have hvalue : 0x10000 + (0xD800 + (c - 0x10000) / 0x400 - 0xD800) * 0x400 +
      (0xDC00 + (c - 0x10000) % 0x400 - 0xDC00) = c := by
    omega
  rw [utf16Units, if_neg hwide, List.cons_append, List.singleton_append,
    joinSurrogates_cons_of_pair hpair, hvalue]

/-- **Splitting into units and pairing up again** pairs up what was there. -/
theorem joinSurrogates_units {s : PyStr} (hs : ∀ c ∈ s, IsCodePoint c) :
    joinSurrogates (s.flatMap utf16Units) = joinSurrogates s := by
  have hnarrow : ∀ {c}, c < 0x10000 → utf16Units c = [c] := fun h => if_pos h
  induction s using joinSurrogates.induct with
  | case1 => rfl
  | case2 c =>
      by_cases hc : c < 0x10000
      · simp [hnarrow hc]
      · simpa [joinSurrogates] using joinSurrogates_wide (hs c List.mem_cons_self) hc []
  | case3 c d rest h ih =>
      have hc : c < 0x10000 := by
        have := h.2.1
        omega
      have hd : d < 0x10000 := by
        have := h.2.2.2
        omega
      have hrest := ih fun e he => hs e (List.mem_cons_of_mem c (List.mem_cons_of_mem d he))
      rw [List.flatMap_cons, List.flatMap_cons, hnarrow hc, hnarrow hd, List.singleton_append,
        List.singleton_append, joinSurrogates_cons_of_pair h, joinSurrogates_cons_of_pair h,
        hrest]
  | case4 c d rest h ih =>
      have hrest := ih fun e he => hs e (List.mem_cons_of_mem c he)
      rw [joinSurrogates_cons_of_not h, ← hrest, List.flatMap_cons (x := c)]
      by_cases hc : c < 0x10000
      · rw [hnarrow hc, List.singleton_append, List.flatMap_cons]
        exact joinSurrogates_cons_units h (hs d (by simp)) _
      · exact joinSurrogates_wide (hs c List.mem_cons_self) hc _

/-! ## Escapes -/

/-- A hexadecimal digit is read. -/
theorem hexDigit?_digit {d : Nat} (hd : d < 16) :
    hexDigit? (if d < 10 then 48 + d else 87 + d) = some d := by
  have hall : ∀ d < 16, hexDigit? (if d < 10 then 48 + d else 87 + d) = some d := by decide
  exact hall d hd

/-- Four hexadecimal digits are read. -/
theorem scanString_hex4 {n : Nat} (hn : n < 0x10000) (rest : PyStr) :
    scanString (py "\\u" ++ hex4 n ++ rest) =
      (scanString rest).map fun r => (n :: r.1, r.2) := by
  have hunit : hexUnit? (if n / 4096 % 16 < 10 then 48 + n / 4096 % 16 else 87 + n / 4096 % 16)
      (if n / 256 % 16 < 10 then 48 + n / 256 % 16 else 87 + n / 256 % 16)
      (if n / 16 % 16 < 10 then 48 + n / 16 % 16 else 87 + n / 16 % 16)
      (if n % 16 < 10 then 48 + n % 16 else 87 + n % 16) = some n := by
    simp only [hexUnit?, hexDigit?_digit (Nat.mod_lt _ (by decide : 0 < 16)), Option.bind_eq_bind,
      Option.bind_some, Option.pure_def, Option.some.injEq]
    omega
  have htext : py "\\u" ++ hex4 n ++ rest = 92 :: 117 ::
      (if n / 4096 % 16 < 10 then 48 + n / 4096 % 16 else 87 + n / 4096 % 16) ::
      (if n / 256 % 16 < 10 then 48 + n / 256 % 16 else 87 + n / 256 % 16) ::
      (if n / 16 % 16 < 10 then 48 + n / 16 % 16 else 87 + n / 16 % 16) ::
      (if n % 16 < 10 then 48 + n % 16 else 87 + n % 16) :: rest := rfl
  rw [htext, scanString, hunit]

/-- A one-letter escape is read. -/
theorem scanString_simple {e u : Nat} (h : simpleEscape? e = some u) (hu : e ≠ 117)
    (rest : PyStr) :
    scanString (92 :: e :: rest) = (scanString rest).map fun r => (u :: r.1, r.2) := by
  rw [scanString.eq_def]
  split
  · contradiction
  · rename_i heq
    simp only [List.cons.injEq, true_and] at heq
    omega
  · rename_i heq
    simp only [List.cons.injEq, true_and] at heq
    obtain ⟨rfl, rfl⟩ := heq
    rw [h]
  · rename_i hnot heq
    simp only [List.cons.injEq] at heq
    exact (hnot e rest heq.1.symm heq.2.symm).elim

/-- A character that needs no escape is read. -/
theorem scanString_plain {c : Nat} (hquote : c ≠ 34) (hback : c ≠ 92) (hlow : 32 ≤ c)
    (rest : PyStr) :
    scanString (c :: rest) = (scanString rest).map fun r => (c :: r.1, r.2) := by
  rw [scanString.eq_def]
  split
  · contradiction
  · rename_i heq
    exact absurd (List.cons.inj heq).1 hback
  · rename_i heq
    exact absurd (List.cons.inj heq).1 hback
  · rename_i heq
    obtain ⟨rfl, rfl⟩ := List.cons.inj heq
    rw [if_neg hquote, if_neg (by omega)]

/-- **An escaped character is read** as its units. -/
theorem scanString_escapeChar {c : Nat} (hc : IsCodePoint c) (rest : PyStr) :
    scanString (escapeChar c ++ rest) =
      (scanString rest).map fun r => (utf16Units c ++ r.1, r.2) := by
  have hc' : c < 0x110000 := hc
  have hnarrow : c < 0x10000 → utf16Units c = [c] := fun h => if_pos h
  unfold escapeChar
  split_ifs with hquote hback hnewline hreturn htab hfeed hbackspace hplain hlow
  · subst hquote
    exact scanString_simple rfl (by decide) rest
  · subst hback
    exact scanString_simple rfl (by decide) rest
  · subst hnewline
    exact scanString_simple rfl (by decide) rest
  · subst hreturn
    exact scanString_simple rfl (by decide) rest
  · subst htab
    exact scanString_simple rfl (by decide) rest
  · subst hfeed
    exact scanString_simple rfl (by decide) rest
  · subst hbackspace
    exact scanString_simple rfl (by decide) rest
  · rw [List.singleton_append, scanString_plain hquote hback hplain.1, hnarrow (by omega)]
    rfl
  · rw [scanString_hex4 hlow, hnarrow hlow]
    rfl
  · have hhigh : 0xD800 + (c - 0x10000) / 0x400 < 0x10000 := by omega
    have hlower : 0xDC00 + (c - 0x10000) % 0x400 < 0x10000 := by omega
    rw [utf16Units, if_neg hlow, List.append_assoc, List.append_assoc, ← List.append_assoc (py _),
      scanString_hex4 hhigh, scanString_hex4 hlower, Option.map_map]
    rfl

/-! ## Styles -/

/-- How a printer escapes characters and what it writes after a separator. -/
structure JsonStyle where
  /-- What stands for a character in a string literal. -/
  escape : Nat → PyStr
  /-- The code units that a reader finds there. -/
  units : Nat → PyStr
  /-- The blanks after a comma or a colon. -/
  gap : Nat
  hescape : ∀ c, IsCodePoint c → ∀ rest,
    scanString (escape c ++ rest) = (scanString rest).map fun r => (units c ++ r.1, r.2)
  hunits : ∀ s : PyStr, (∀ c ∈ s, IsCodePoint c) →
    joinSurrogates (s.flatMap units) = joinSurrogates s

/-- {lit}`json.dumps` with its defaults: ASCII only, blanks after separators. -/
def asciiStyle : JsonStyle where
  escape := escapeChar
  units := utf16Units
  gap := 1
  hescape := fun _ hc rest => scanString_escapeChar hc rest
  hunits := fun _ hs => joinSurrogates_units hs

namespace JsonStyle

variable (st : JsonStyle)

/-- A string literal. -/
def quote (s : PyStr) : PyStr :=
  34 :: s.flatMap st.escape ++ [34]

/-- A separator and its blanks. -/
def separator (c : Nat) : PyStr :=
  c :: List.replicate st.gap 32

/-- A string literal is read up to its end. -/
theorem scanString_quote {s : PyStr} (hs : ∀ c ∈ s, IsCodePoint c) (rest : PyStr) :
    scanString (s.flatMap st.escape ++ 34 :: rest) = some (s.flatMap st.units, rest) := by
  induction s with
  | nil => rfl
  | cons c cs ih =>
      rw [List.flatMap_cons, List.append_assoc, st.hescape c (hs c List.mem_cons_self),
        ih fun d hd => hs d (List.mem_cons_of_mem c hd)]
      rfl

/-- The blanks of a separator are skipped. -/
theorem skipBlank_gap {c : Nat} (hc : c ≠ 32 ∧ c ≠ 9 ∧ c ≠ 10 ∧ c ≠ 13) (rest : PyStr) :
    skipBlank (List.replicate st.gap 32 ++ c :: rest) = c :: rest := by
  induction st.gap with
  | zero => exact skipBlank_cons hc rest
  | succ n ih => exact ih

end JsonStyle

/-! ## Sorted keys -/

/-- The fields of an object, sorted by key. -/
def sortFields {α : Type} (fields : List (PyStr × α)) : List (PyStr × α) :=
  fields.insertionSort fun f g => leStr f.1 g.1

theorem insertField_eq (f : PyStr × PyStr) (fields : List (PyStr × PyStr)) :
    insertField f fields = fields.orderedInsert (fun f g => leStr f.1 g.1) f := by
  induction fields with
  | nil => rfl
  | cons g rest ih => rw [insertField, ih, List.orderedInsert]

/-- The printer sorts the fields. -/
theorem foldr_insertField (fields : List (PyStr × PyStr)) :
    fields.foldr insertField [] = sortFields fields := by
  induction fields with
  | nil => rfl
  | cons f rest ih =>
      rw [List.foldr_cons, ih, insertField_eq]
      rfl

theorem sortFields_perm {α : Type} (fields : List (PyStr × α)) :
    (sortFields fields).Perm fields :=
  List.perm_insertionSort _ fields

theorem mem_sortFields {α : Type} {f : PyStr × α} {fields : List (PyStr × α)} :
    f ∈ sortFields fields ↔ f ∈ fields :=
  (sortFields_perm fields).mem_iff

/-- What is done to the values does not change the order of the keys. -/
theorem sortFields_map {α β : Type} (g : α → β) (fields : List (PyStr × α)) :
    sortFields (fields.map fun f => (f.1, g f.2)) =
      (sortFields fields).map fun f => (f.1, g f.2) :=
  (List.map_insertionSort (fun f g : PyStr × α => leStr f.1 g.1)
    (fun f g : PyStr × β => leStr f.1 g.1) (fun f => (f.1, g f.2)) fields
    fun _ _ _ _ => Iff.rfl).symm

/-! ## Printing in a style -/

namespace JsonStyle

variable (st : JsonStyle)

/-- A field with its printed value. -/
def field (f : PyStr × PyStr) : PyStr :=
  st.quote f.1 ++ st.separator 58 ++ f.2

mutual

/-- The text of a value; the keys of objects are sorted. -/
def print : Json → PyStr
  | .null => py "null"
  | .bool b => if b then py "true" else py "false"
  | .int z => intRepr z
  | .float x => x.repr
  | .str s => st.quote s
  | .arr items => 91 :: joinStr (st.separator 44) (printItems items) ++ [93]
  | .obj fields =>
      123 :: joinStr (st.separator 44) ((sortFields (printFields fields)).map st.field) ++ [125]

/-- The texts of the items of an array. -/
def printItems : List Json → List PyStr
  | [] => []
  | j :: rest => print j :: printItems rest

/-- The keys of an object with the texts of its values. -/
def printFields : List (PyStr × Json) → List (PyStr × PyStr)
  | [] => []
  | (k, v) :: rest => (k, print v) :: printFields rest

end

theorem printItems_eq (items : List Json) : st.printItems items = items.map st.print := by
  induction items with
  | nil => rfl
  | cons j rest ih => rw [printItems, ih, List.map_cons]

theorem printFields_eq (fields : List (PyStr × Json)) :
    st.printFields fields = fields.map fun f => (f.1, st.print f.2) := by
  induction fields with
  | nil => rfl
  | cons f rest ih => rw [printFields, ih, List.map_cons]

/-- The sorted fields of an object, printed. -/
theorem print_obj (fields : List (PyStr × Json)) :
    st.print (.obj fields) = 123 :: joinStr (st.separator 44)
      ((sortFields fields).map fun f => st.field (f.1, st.print f.2)) ++ [125] := by
  rw [print, printFields_eq, sortFields_map, List.map_map]
  rfl

theorem print_arr (items : List Json) :
    st.print (.arr items) = 91 :: joinStr (st.separator 44) (items.map st.print) ++ [93] := by
  rw [print, printItems_eq]

end JsonStyle

mutual

/-- {lit}`json.dumps` prints in the ASCII style. -/
theorem dumps_eq : (j : Json) → dumps j = asciiStyle.print j
  | .null | .bool _ | .int _ | .float _ | .str _ => rfl
  | .arr items => by rw [dumps, dumpsList_eq items, JsonStyle.print]; rfl
  | .obj fields => by
      rw [dumps, dumpsFields_eq fields, printObj, foldr_insertField, JsonStyle.print]
      rfl

theorem dumpsList_eq : (items : List Json) → dumpsList items = asciiStyle.printItems items
  | [] => rfl
  | j :: rest => by rw [dumpsList, dumps_eq j, dumpsList_eq rest, JsonStyle.printItems]

theorem dumpsFields_eq : (fields : List (PyStr × Json)) →
    dumpsFields fields = asciiStyle.printFields fields
  | [] => rfl
  | (k, v) :: rest => by rw [dumpsFields, dumps_eq v, dumpsFields_eq rest, JsonStyle.printFields]

end

/-! ## Values -/

mutual

/-- The value with the keys of its objects in order.  As Python compares dictionaries it is
the same value. -/
def Json.sorted : Json → Json
  | .arr items => .arr (sortedItems items)
  | .obj fields => .obj (sortFields (sortedFields fields))
  | j => j

/-- The items of an array, each with its keys in order. -/
def sortedItems : List Json → List Json
  | [] => []
  | j :: rest => j.sorted :: sortedItems rest

/-- The fields of an object, each value with its keys in order. -/
def sortedFields : List (PyStr × Json) → List (PyStr × Json)
  | [] => []
  | (k, v) :: rest => (k, v.sorted) :: sortedFields rest

end

/-- What comes back of the fields of an object, each overwriting an equal key. -/
def rereadInto (seen fields : List (PyStr × Json)) : List (PyStr × Json) :=
  fields.foldl (fun seen f => setField (joinSurrogates f.1) f.2 seen) seen

mutual

/-- The value that comes back: surrogates are paired up, and a key that was there before
overwrites. -/
def Json.reread : Json → Json
  | .str s => .str (joinSurrogates s)
  | .arr items => .arr (rereadItems items)
  | .obj fields => .obj (rereadInto [] (sortFields (rereadFields fields)))
  | j => j

/-- The items of an array that come back. -/
def rereadItems : List Json → List Json
  | [] => []
  | j :: rest => j.reread :: rereadItems rest

/-- The fields of an object, each with the value that comes back. -/
def rereadFields : List (PyStr × Json) → List (PyStr × Json)
  | [] => []
  | (k, v) :: rest => (k, v.reread) :: rereadFields rest

end

mutual

/-- How many containers are open at once. -/
def Json.depth : Json → Nat
  | .arr items => itemsDepth items + 1
  | .obj fields => fieldsDepth fields + 1
  | _ => 0

/-- The depth of the deepest item. -/
def itemsDepth : List Json → Nat
  | [] => 0
  | j :: rest => max j.depth (itemsDepth rest)

/-- The depth of the deepest value of an object. -/
def fieldsDepth : List (PyStr × Json) → Nat
  | [] => 0
  | (_, v) :: rest => max v.depth (fieldsDepth rest)

end

mutual

/-- Every text in a value, keys included. -/
def Json.texts : Json → List PyStr
  | .str s => [s]
  | .arr items => itemsTexts items
  | .obj fields => fieldsTexts fields
  | _ => []

/-- Every text in the items of an array. -/
def itemsTexts : List Json → List PyStr
  | [] => []
  | j :: rest => j.texts ++ itemsTexts rest

/-- Every text in the fields of an object. -/
def fieldsTexts : List (PyStr × Json) → List PyStr
  | [] => []
  | (k, v) :: rest => k :: (v.texts ++ fieldsTexts rest)

end

mutual

/-- Every integer in a value. -/
def Json.ints : Json → List Int
  | .int z => [z]
  | .arr items => itemsInts items
  | .obj fields => fieldsInts fields
  | _ => []

/-- Every integer in the items of an array. -/
def itemsInts : List Json → List Int
  | [] => []
  | j :: rest => j.ints ++ itemsInts rest

/-- Every integer in the fields of an object. -/
def fieldsInts : List (PyStr × Json) → List Int
  | [] => []
  | (_, v) :: rest => v.ints ++ fieldsInts rest

end

theorem sortedItems_eq (items : List Json) : sortedItems items = items.map Json.sorted := by
  induction items with
  | nil => rfl
  | cons j rest ih => rw [sortedItems, ih, List.map_cons]

theorem sortedFields_eq (fields : List (PyStr × Json)) :
    sortedFields fields = fields.map fun f => (f.1, f.2.sorted) := by
  induction fields with
  | nil => rfl
  | cons f rest ih => rw [sortedFields, ih, List.map_cons]

theorem rereadItems_eq (items : List Json) : rereadItems items = items.map Json.reread := by
  induction items with
  | nil => rfl
  | cons j rest ih => rw [rereadItems, ih, List.map_cons]

theorem rereadFields_eq (fields : List (PyStr × Json)) :
    rereadFields fields = fields.map fun f => (f.1, f.2.reread) := by
  induction fields with
  | nil => rfl
  | cons f rest ih => rw [rereadFields, ih, List.map_cons]

theorem fieldsDepth_le {fields : List (PyStr × Json)} {d : Nat} :
    fieldsDepth fields ≤ d ↔ ∀ f ∈ fields, f.2.depth ≤ d := by
  induction fields with
  | nil => simp [fieldsDepth]
  | cons f rest ih => rw [fieldsDepth, Nat.max_le, ih, List.forall_mem_cons]

theorem forall_itemsTexts {items : List Json} {P : PyStr → Prop} :
    (∀ s ∈ itemsTexts items, P s) ↔ ∀ j ∈ items, ∀ s ∈ j.texts, P s := by
  induction items with
  | nil => simp [itemsTexts]
  | cons j rest ih => rw [itemsTexts, List.forall_mem_append, ih, List.forall_mem_cons]

theorem forall_itemsInts {items : List Json} {P : Int → Prop} :
    (∀ z ∈ itemsInts items, P z) ↔ ∀ j ∈ items, ∀ z ∈ j.ints, P z := by
  induction items with
  | nil => simp [itemsInts]
  | cons j rest ih => rw [itemsInts, List.forall_mem_append, ih, List.forall_mem_cons]

theorem forall_fieldsInts {fields : List (PyStr × Json)} {P : Int → Prop} :
    (∀ z ∈ fieldsInts fields, P z) ↔ ∀ f ∈ fields, ∀ z ∈ f.2.ints, P z := by
  induction fields with
  | nil => simp [fieldsInts]
  | cons f rest ih => rw [fieldsInts, List.forall_mem_append, ih, List.forall_mem_cons]

theorem forall_fieldsTexts {fields : List (PyStr × Json)} {P : PyStr → Prop} :
    (∀ s ∈ fieldsTexts fields, P s) ↔ ∀ f ∈ fields, P f.1 ∧ ∀ s ∈ f.2.texts, P s := by
  induction fields with
  | nil => simp [fieldsTexts]
  | cons f rest ih =>
      rw [fieldsTexts, List.forall_mem_cons, List.forall_mem_append, ih, List.forall_mem_cons,
        and_assoc]

/-- A value of Python: floats are floats, text is code points, and the keys of a dictionary
are distinct. -/
inductive Json.WellFormed : Json → Prop
  | null : WellFormed .null
  | bool (b : Bool) : WellFormed (.bool b)
  | int (z : Int) : WellFormed (.int z)
  | float {x : PyFloat} (h : x.IsValue) : WellFormed (.float x)
  | str {s : PyStr} (h : ∀ c ∈ s, IsCodePoint c) : WellFormed (.str s)
  | arr {items : List Json} (h : ∀ j ∈ items, WellFormed j) : WellFormed (.arr items)
  | obj {fields : List (PyStr × Json)} (hkeys : (fields.map Prod.fst).Nodup)
      (htexts : ∀ f ∈ fields, ∀ c ∈ f.1, IsCodePoint c) (h : ∀ f ∈ fields, WellFormed f.2) :
      WellFormed (.obj fields)

/-- Every integer is within the limit on printed digits. -/
def Json.IntsPrint (j : Json) : Prop :=
  ∀ z ∈ j.ints, (natDigits z.natAbs).length ≤ maxIntDigits

instance (j : Json) : Decidable j.IntsPrint :=
  inferInstanceAs (Decidable (∀ z ∈ j.ints, _))

/-! ## Reading -/

/-- How a printed value may start: not with a blank or a closing bracket. -/
def OpensValue (c : Nat) : Prop :=
  (c ≠ 32 ∧ c ≠ 9 ∧ c ≠ 10 ∧ c ≠ 13) ∧ c ≠ 93 ∧ c ≠ 125

instance (c : Nat) : Decidable (OpensValue c) :=
  inferInstanceAs (Decidable (_ ∧ _))

/-- An atom is scanned. -/
theorem scanValue_atom {c : Nat} {rest : PyStr} {r : Json × PyStr}
    (hscan : scanAtom (c :: rest) = some r) (hc : c ≠ 34 ∧ c ≠ 91 ∧ c ≠ 123) {fuel : Nat}
    (hfuel : 0 < fuel) (depth : Nat) : scanValue fuel depth (c :: rest) = .ok r := by
  obtain ⟨fuel, rfl⟩ : ∃ n, fuel = n + 1 := ⟨fuel - 1, by omega⟩
  simp [scanValue, hc, hscan]

theorem scanAtom_null (tail : PyStr) : scanAtom (py "null" ++ tail) = some (.null, tail) :=
  rfl

theorem scanAtom_bool (b : Bool) (tail : PyStr) :
    scanAtom ((if b then py "true" else py "false") ++ tail) = some (.bool b, tail) := by
  cases b <;> rfl

/-- Of several texts, the first is followed by a separator. -/
theorem joinStr_cons (sep : PyStr) {s : PyStr} {more : List PyStr} (hne : more ≠ []) :
    joinStr sep (s :: more) = s ++ sep ++ joinStr sep more := by
  cases more with
  | nil => contradiction
  | cons t rest => rfl

/-- Joined texts start as the first of them. -/
theorem joinStr_head (sep : PyStr) {s : PyStr} {c : Nat} {rest : PyStr} (h : s = c :: rest)
    (more : List PyStr) : ∃ body, joinStr sep (s :: more) = c :: body := by
  subst h
  cases more with
  | nil => exact ⟨rest, rfl⟩
  | cons t more => exact ⟨_, rfl⟩

/-! One step of the scanner. -/

section Steps

variable {fuel depth : Nat} {s rest : PyStr} {j : Json}

theorem scanItems_error {e : PyExc} (h : scanValue fuel depth s = .error e) :
    scanItems (fuel + 1) depth s = .error e := by
  rw [scanItems, h]

theorem scanItems_last (h : scanValue fuel depth s = .ok (j, 93 :: rest)) :
    scanItems (fuel + 1) depth s = .ok ([j], rest) := by
  rw [scanItems, h]
  simp only [skipBlank_cons (c := 93) (by decide)]

theorem scanItems_more (h : scanValue fuel depth s = .ok (j, 44 :: rest)) :
    scanItems (fuel + 1) depth s =
      (scanItems fuel depth (skipBlank rest)).map fun r => (j :: r.1, r.2) := by
  rw [scanItems, h]
  simp only [skipBlank_cons (c := 44) (by decide)]
  cases scanItems fuel depth (skipBlank rest) <;> rfl

/-- A nonempty array is its items, one level down. -/
theorem scanValue_arr {c : Nat} (hc : OpensValue c) :
    scanValue (fuel + 1) (depth + 1) (91 :: c :: rest) =
      (scanItems fuel depth (c :: rest)).map fun r => (.arr r.1, r.2) := by
  have hne : c ≠ 93 := hc.2.1
  cases hitems : scanItems fuel depth (c :: rest) <;>
    simp [scanValue, skipBlank_cons hc.1, hne, hitems, Except.map]

/-- A nonempty object is its fields, one level down. -/
theorem scanValue_obj {c : Nat} (hc : OpensValue c) :
    scanValue (fuel + 1) (depth + 1) (123 :: c :: rest) =
      (scanFields fuel depth [] (c :: rest)).map fun r => (.obj r.1, r.2) := by
  have hne : c ≠ 125 := hc.2.2
  cases hfields : scanFields fuel depth [] (c :: rest) <;>
    simp [scanValue, skipBlank_cons hc.1, hne, hfields, Except.map]

variable {units : PyStr} {seen : List (PyStr × Json)} {key body : PyStr}

theorem scanFields_error {e : PyExc} (hkey : scanString key = some (units, 58 :: body))
    (h : scanValue fuel depth (skipBlank body) = .error e) :
    scanFields (fuel + 1) depth seen (34 :: key) = .error e := by
  rw [scanFields, hkey]
  simp only [skipBlank_cons (c := 58) (by decide), h]

theorem scanFields_last (hkey : scanString key = some (units, 58 :: body))
    (h : scanValue fuel depth (skipBlank body) = .ok (j, 125 :: rest)) :
    scanFields (fuel + 1) depth seen (34 :: key) =
      .ok (setField (joinSurrogates units) j seen, rest) := by
  rw [scanFields, hkey]
  simp only [skipBlank_cons (c := 58) (by decide), h, skipBlank_cons (c := 125) (by decide)]

theorem scanFields_more (hkey : scanString key = some (units, 58 :: body))
    (h : scanValue fuel depth (skipBlank body) = .ok (j, 44 :: rest)) :
    scanFields (fuel + 1) depth seen (34 :: key) =
      scanFields fuel depth (setField (joinSurrogates units) j seen) (skipBlank rest) := by
  rw [scanFields, hkey]
  simp only [skipBlank_cons (c := 58) (by decide), h, skipBlank_cons (c := 44) (by decide)]

end Steps

namespace JsonStyle

variable {st : JsonStyle}

/-- What reading a printed value gives, whatever follows it. -/
structure Reads (st : JsonStyle) (j : Json) : Prop where
  head : ∃ c rest, st.print j = c :: rest ∧ OpensValue c
  scan : ∀ (fuel depth : Nat) (tail : PyStr), 2 * (st.print j).length ≤ fuel → EndsNumber tail →
    scanValue fuel depth (st.print j ++ tail) =
      if j.depth ≤ depth then .ok (j.reread, tail) else .error .recursionError

theorem Reads.length_pos {j : Json} (h : st.Reads j) : 0 < (st.print j).length := by
  obtain ⟨c, rest, hprint, -⟩ := h.head
  simp [hprint]

/-- An atom is read. -/
theorem reads_atom {j : Json} (hreread : j.reread = j) (hdepth : j.depth = 0)
    (hhead : ∃ c rest, st.print j = c :: rest ∧ OpensValue c ∧ c ≠ 34 ∧ c ≠ 91 ∧ c ≠ 123)
    (hscan : ∀ tail, EndsNumber tail → scanAtom (st.print j ++ tail) = some (j, tail)) :
    st.Reads j := by
  obtain ⟨c, rest, hprint, hopens, hc⟩ := hhead
  refine ⟨⟨c, rest, hprint, hopens⟩, fun fuel depth tail hfuel htail => ?_⟩
  rw [hdepth, if_pos (Nat.zero_le _), hreread]
  have hatom := hscan tail htail
  rw [hprint, List.cons_append] at hatom ⊢
  refine scanValue_atom hatom hc ?_ depth
  rw [hprint, List.length_cons] at hfuel
  omega

/-- A text is read. -/
theorem reads_str {s : PyStr} (hs : ∀ c ∈ s, IsCodePoint c) : st.Reads (.str s) := by
  refine ⟨⟨34, _, rfl, by decide⟩, fun fuel depth tail hfuel _ => ?_⟩
  obtain ⟨fuel, rfl⟩ : ∃ n, fuel = n + 1 := by
    refine ⟨fuel - 1, ?_⟩
    simp only [print, quote, List.length_append, List.length_cons] at hfuel
    omega
  have htext : st.print (.str s) ++ tail = 34 :: (s.flatMap st.escape ++ 34 :: tail) := by
    simp [print, quote]
  rw [htext, scanValue, st.scanString_quote hs]
  simp only [Json.depth, Nat.zero_le, if_true, Json.reread, st.hunits s hs]

/-- What follows a separator is scanned next. -/
theorem skipBlank_separator {c : Nat} {rest : PyStr} (hc : OpensValue c) :
    skipBlank (List.replicate st.gap 32 ++ c :: rest) = c :: rest :=
  st.skipBlank_gap hc.1 rest

/-- The items of an array are read. -/
theorem scanItems_print {items : List Json} (h : ∀ j ∈ items, st.Reads j) (hne : items ≠ [])
    (fuel depth : Nat) (tail : PyStr)
    (hfuel : 2 * (joinStr (st.separator 44) (items.map st.print)).length + 1 ≤ fuel) :
    scanItems fuel depth (joinStr (st.separator 44) (items.map st.print) ++ 93 :: tail) =
      if itemsDepth items ≤ depth then .ok (rereadItems items, tail)
      else .error .recursionError := by
  induction items generalizing fuel with
  | nil => contradiction
  | cons j rest ih =>
      obtain ⟨fuel, rfl⟩ : ∃ n, fuel = n + 1 := ⟨fuel - 1, by omega⟩
      have hj := h j List.mem_cons_self
      cases rest with
      | nil =>
          have hscan := hj.scan fuel depth _
            (by simp only [List.map_cons, List.map_nil, joinStr] at hfuel; omega)
            (endsNumber_cons (Or.inr (Or.inl rfl)) tail)
          simp only [List.map_cons, List.map_nil, joinStr, itemsDepth, Nat.max_zero, rereadItems]
          by_cases hd : j.depth ≤ depth
          · rw [if_pos hd] at hscan ⊢
            exact scanItems_last hscan
          · rw [if_neg hd] at hscan ⊢
            exact scanItems_error hscan
      | cons k more =>
          have hnil : (k :: more).map st.print ≠ [] := by simp
          have htext : joinStr (st.separator 44) ((j :: k :: more).map st.print) =
              st.print j ++ st.separator 44 ++
                joinStr (st.separator 44) ((k :: more).map st.print) :=
            joinStr_cons _ hnil
          have hpos := hj.length_pos
          have hlen : st.gap + 1 = (st.separator 44).length := by simp [separator]
          rw [htext, List.length_append, List.length_append, ← hlen] at hfuel
          have hnext := ih (fun l hl => h l (List.mem_cons_of_mem j hl)) (List.cons_ne_nil k more)
            fuel (by omega)
          have hscan := hj.scan fuel depth _ (by omega)
            (endsNumber_cons (Or.inl rfl) (List.replicate st.gap 32 ++
              (joinStr (st.separator 44) ((k :: more).map st.print) ++ 93 :: tail)))
          rw [htext, List.append_assoc, List.append_assoc, separator, List.cons_append,
            ← separator]
          rw [itemsDepth, rereadItems]
          by_cases hd : j.depth ≤ depth
          · obtain ⟨c, body, hprint, hc⟩ := (h k (by simp)).head
            obtain ⟨body', hbody⟩ := joinStr_head (st.separator 44) hprint (more.map st.print)
            rw [if_pos hd] at hscan
            rw [scanItems_more hscan, List.map_cons, hbody, List.cons_append,
              skipBlank_separator hc, ← List.cons_append, ← hbody, ← List.map_cons, hnext]
            by_cases hm : itemsDepth (k :: more) ≤ depth
            · rw [if_pos hm, if_pos (Nat.max_le.mpr ⟨hd, hm⟩)]
              rfl
            · rw [if_neg hm, if_neg fun hmax => hm (Nat.max_le.mp hmax).2]
              rfl
          · rw [if_neg hd] at hscan
            rw [scanItems_error hscan, if_neg fun hmax => hd (Nat.max_le.mp hmax).1]

/-- A key is read, and the text of its value comes next. -/
theorem scanString_field (st : JsonStyle) {k : PyStr} (hk : ∀ c ∈ k, IsCodePoint c)
    (value rest : PyStr) :
    ∃ key, st.field (k, value) ++ rest = 34 :: key ∧
      scanString key =
        some (k.flatMap st.units, 58 :: (List.replicate st.gap 32 ++ value ++ rest)) := by
  refine ⟨k.flatMap st.escape ++ 34 :: (58 :: (List.replicate st.gap 32 ++ value ++ rest)), ?_,
    st.scanString_quote hk _⟩
  simp [field, quote, separator]

/-- The fields of an object are read. -/
theorem scanFields_print {fields : List (PyStr × Json)} (h : ∀ f ∈ fields, st.Reads f.2)
    (hkeys : ∀ f ∈ fields, ∀ c ∈ f.1, IsCodePoint c) (hne : fields ≠ []) (fuel depth : Nat)
    (tail : PyStr) (seen : List (PyStr × Json))
    (hfuel : 2 * (joinStr (st.separator 44)
      (fields.map fun f => st.field (f.1, st.print f.2))).length + 1 ≤ fuel) :
    scanFields fuel depth seen
        (joinStr (st.separator 44) (fields.map fun f => st.field (f.1, st.print f.2)) ++
          125 :: tail) =
      if fieldsDepth fields ≤ depth then .ok (rereadInto seen (rereadFields fields), tail)
      else .error .recursionError := by
  induction fields generalizing fuel seen with
  | nil => contradiction
  | cons f rest ih =>
      obtain ⟨fuel, rfl⟩ : ∃ n, fuel = n + 1 := ⟨fuel - 1, by omega⟩
      obtain ⟨k, v⟩ := f
      have hv : st.Reads v := h (k, v) List.mem_cons_self
      have hk : ∀ c ∈ k, IsCodePoint c := hkeys (k, v) List.mem_cons_self
      obtain ⟨c, body, hprint, hc⟩ := hv.head
      have hfield : (st.print v).length ≤ (st.field (k, st.print v)).length := by
        simp only [field, List.length_append]
        omega
      cases rest with
      | nil =>
          obtain ⟨key, hkey, hscan⟩ := scanString_field st hk (st.print v) (125 :: tail)
          simp only [List.map_cons, List.map_nil, joinStr] at hfuel ⊢
          have hvalue := hv.scan fuel depth _ (by omega)
            (endsNumber_cons (Or.inr (Or.inr rfl)) tail)
          have hblank : skipBlank (List.replicate st.gap 32 ++ st.print v ++ 125 :: tail) =
              st.print v ++ 125 :: tail := by
            rw [List.append_assoc, hprint, List.cons_append, skipBlank_separator hc]
          rw [← hblank] at hvalue
          rw [hkey, fieldsDepth, fieldsDepth, Nat.max_zero]
          by_cases hd : v.depth ≤ depth
          · rw [if_pos hd] at hvalue ⊢
            rw [scanFields_last hscan hvalue, st.hunits k hk]
            rfl
          · rw [if_neg hd] at hvalue ⊢
            exact scanFields_error hscan hvalue
      | cons g more =>
          have hnil : (g :: more).map (fun f => st.field (f.1, st.print f.2)) ≠ [] := by simp
          have htext : joinStr (st.separator 44)
                (((k, v) :: g :: more).map fun f => st.field (f.1, st.print f.2)) =
              st.field (k, st.print v) ++ st.separator 44 ++
                joinStr (st.separator 44)
                  ((g :: more).map fun f => st.field (f.1, st.print f.2)) :=
            joinStr_cons _ hnil
          have hlen : st.gap + 1 = (st.separator 44).length := by simp [separator]
          rw [htext, List.length_append, List.length_append, ← hlen] at hfuel
          have hnext := ih (fun l hl => h l (List.mem_cons_of_mem _ hl))
            (fun l hl => hkeys l (List.mem_cons_of_mem _ hl)) (List.cons_ne_nil g more)
            fuel (setField (joinSurrogates k) v.reread seen) (by omega)
          obtain ⟨key, hkey, hscan⟩ := scanString_field st hk (st.print v)
            (44 :: (List.replicate st.gap 32 ++ (joinStr (st.separator 44)
              ((g :: more).map fun f => st.field (f.1, st.print f.2)) ++ 125 :: tail)))
          have hvalue := hv.scan fuel depth _ (by omega)
            (endsNumber_cons (Or.inl rfl) (List.replicate st.gap 32 ++ (joinStr (st.separator 44)
              ((g :: more).map fun f => st.field (f.1, st.print f.2)) ++ 125 :: tail)))
          have hblank : skipBlank (List.replicate st.gap 32 ++ st.print v ++
                44 :: (List.replicate st.gap 32 ++ (joinStr (st.separator 44)
                  ((g :: more).map fun f => st.field (f.1, st.print f.2)) ++ 125 :: tail))) =
              st.print v ++ 44 :: (List.replicate st.gap 32 ++ (joinStr (st.separator 44)
                ((g :: more).map fun f => st.field (f.1, st.print f.2)) ++ 125 :: tail)) := by
            rw [List.append_assoc, hprint, List.cons_append, skipBlank_separator hc]
          rw [← hblank] at hvalue
          have hwhole : st.field (k, st.print v) ++ st.separator 44 ++
                joinStr (st.separator 44)
                  ((g :: more).map fun f => st.field (f.1, st.print f.2)) ++ 125 :: tail =
              34 :: key := by
            rw [← hkey]
            simp [separator]
          rw [htext, hwhole, fieldsDepth, rereadFields]
          by_cases hd : v.depth ≤ depth
          · obtain ⟨body', hbody⟩ : ∃ body', joinStr (st.separator 44)
                ((g :: more).map fun f => st.field (f.1, st.print f.2)) = 34 :: body' :=
              joinStr_head (st.separator 44) rfl _
            rw [if_pos hd] at hvalue
            rw [scanFields_more hscan hvalue, hbody, List.cons_append,
              skipBlank_separator (c := 34) (by decide), ← List.cons_append, ← hbody,
              st.hunits k hk, hnext]
            by_cases hm : fieldsDepth (g :: more) ≤ depth
            · rw [if_pos hm, if_pos (Nat.max_le.mpr ⟨hd, hm⟩)]
              rfl
            · rw [if_neg hm, if_neg fun hmax => hm (Nat.max_le.mp hmax).2]
          · rw [if_neg hd] at hvalue
            rw [scanFields_error hscan hvalue, if_neg fun hmax => hd (Nat.max_le.mp hmax).1]

/-- An array of values that are read is read. -/
theorem reads_arr {items : List Json} (h : ∀ j ∈ items, st.Reads j) : st.Reads (.arr items) := by
  refine ⟨⟨91, _, rfl, by decide⟩, fun fuel depth tail hfuel _ => ?_⟩
  rw [print_arr] at hfuel ⊢
  simp only [List.length_append, List.length_cons, List.length_nil] at hfuel
  obtain ⟨fuel, rfl⟩ : ∃ n, fuel = n + 1 := ⟨fuel - 1, by omega⟩
  have htext : 91 :: joinStr (st.separator 44) (items.map st.print) ++ [93] ++ tail =
      91 :: (joinStr (st.separator 44) (items.map st.print) ++ 93 :: tail) := by simp
  rw [htext, Json.depth, Json.reread]
  cases depth with
  | zero => rfl
  | succ depth =>
      cases items with
      | nil => rfl
      | cons j rest =>
          obtain ⟨c, body, hprint, hc⟩ := (h j List.mem_cons_self).head
          obtain ⟨body', hbody⟩ := joinStr_head (st.separator 44) hprint (rest.map st.print)
          have hitems := scanItems_print h (List.cons_ne_nil j rest) fuel depth tail (by omega)
          rw [List.map_cons, hbody, List.cons_append] at hitems ⊢
          rw [scanValue_arr hc, hitems]
          by_cases hd : itemsDepth (j :: rest) ≤ depth
          · rw [if_pos hd, if_pos (Nat.succ_le_succ hd)]
            rfl
          · rw [if_neg hd, if_neg fun hmax => hd (Nat.le_of_succ_le_succ hmax)]
            rfl

/-- An object whose values are read is read. -/
theorem reads_obj {fields : List (PyStr × Json)} (h : ∀ f ∈ fields, st.Reads f.2)
    (hkeys : ∀ f ∈ fields, ∀ c ∈ f.1, IsCodePoint c) : st.Reads (.obj fields) := by
  refine ⟨⟨123, _, rfl, by decide⟩, fun fuel depth tail hfuel _ => ?_⟩
  have hreread : Json.reread (.obj fields) =
      .obj (rereadInto [] (rereadFields (sortFields fields))) := by
    rw [Json.reread, rereadFields_eq, rereadFields_eq, sortFields_map]
  have hdepth : Json.depth (.obj fields) = fieldsDepth (sortFields fields) + 1 := by
    have hle : ∀ d, fieldsDepth (sortFields fields) ≤ d ↔ fieldsDepth fields ≤ d := by
      intro d
      simp only [fieldsDepth_le, mem_sortFields]
    rw [Json.depth, Nat.le_antisymm ((hle _).mp (Nat.le_refl _)) ((hle _).mpr (Nat.le_refl _))]
  rw [hreread, hdepth, print_obj] at *
  replace h : ∀ f ∈ sortFields fields, st.Reads f.2 := fun f hf => h f (mem_sortFields.mp hf)
  replace hkeys : ∀ f ∈ sortFields fields, ∀ c ∈ f.1, IsCodePoint c :=
    fun f hf => hkeys f (mem_sortFields.mp hf)
  generalize sortFields fields = fields at h hkeys hfuel ⊢
  simp only [List.length_append, List.length_cons, List.length_nil] at hfuel
  obtain ⟨fuel, rfl⟩ : ∃ n, fuel = n + 1 := ⟨fuel - 1, by omega⟩
  have htext : 123 :: joinStr (st.separator 44)
        (fields.map fun f => st.field (f.1, st.print f.2)) ++ [125] ++ tail =
      123 :: (joinStr (st.separator 44)
        (fields.map fun f => st.field (f.1, st.print f.2)) ++ 125 :: tail) := by simp
  rw [htext]
  cases depth with
  | zero => rfl
  | succ depth =>
      cases fields with
      | nil => rfl
      | cons f rest =>
          obtain ⟨body, hbody⟩ : ∃ body, joinStr (st.separator 44)
              ((f :: rest).map fun f => st.field (f.1, st.print f.2)) = 34 :: body :=
            joinStr_head (st.separator 44) rfl _
          have hfields := scanFields_print h hkeys (List.cons_ne_nil f rest) fuel depth tail []
            (by omega)
          rw [hbody, List.cons_append] at hfields ⊢
          rw [scanValue_obj (c := 34) (by decide), hfields]
          by_cases hd : fieldsDepth (f :: rest) ≤ depth
          · rw [if_pos hd, if_pos (Nat.succ_le_succ hd)]
            rfl
          · rw [if_neg hd, if_neg fun hmax => hd (Nat.le_of_succ_le_succ hmax)]
            rfl

/-- **A printed value is scanned.** -/
theorem scanValue_print (st : JsonStyle) {j : Json} (hj : j.WellFormed) (hints : j.IntsPrint) :
    st.Reads j := by
  induction hj with
  | null =>
      exact reads_atom rfl rfl ⟨110, _, rfl, by decide⟩ fun tail _ => scanAtom_null tail
  | bool b =>
      refine reads_atom rfl rfl ?_ fun tail _ => scanAtom_bool b tail
      cases b with
      | true => exact ⟨116, _, rfl, by decide⟩
      | false => exact ⟨102, _, rfl, by decide⟩
  | int z =>
      have hz := hints z (List.mem_singleton_self z)
      refine reads_atom rfl rfl ?_ fun tail htail => scanAtom_intRepr hz htail
      obtain ⟨c, rest, hrepr, hc⟩ := intRepr_head z
      refine ⟨c, rest, hrepr, ?_, ?_, ?_, ?_⟩
      · refine ⟨⟨?_, ?_, ?_, ?_⟩, ?_, ?_⟩ <;> omega
      all_goals omega
  | float hx =>
      refine reads_atom rfl rfl ?_ fun tail htail => scanAtom_repr hx htail
      obtain ⟨c, rest, hrepr, hc⟩ := repr_head hx
      unfold IsDigit at hc
      refine ⟨c, rest, hrepr, ?_, ?_, ?_, ?_⟩
      · refine ⟨⟨?_, ?_, ?_, ?_⟩, ?_, ?_⟩ <;> omega
      all_goals omega
  | str hs => exact reads_str hs
  | arr _ ih => exact reads_arr fun j hj => ih j hj (forall_itemsInts.mp hints j hj)
  | obj _ htexts _ ih =>
      exact reads_obj (fun f hf => ih f hf (forall_fieldsInts.mp hints f hf)) htexts

/-- **A printed value is loaded.** -/
theorem loadsText_print (st : JsonStyle) {j : Json} (hj : j.WellFormed) (hints : j.IntsPrint)
    (limit : Nat) :
    loadsText limit (st.print j) =
      if j.depth ≤ limit then .ok j.reread else .error .recursionError := by
  have hreads := scanValue_print st hj hints
  obtain ⟨c, rest, hprint, hc⟩ := hreads.head
  have hblank : skipBlank (st.print j) = st.print j := by
    rw [hprint, skipBlank_cons hc.1]
  have hscan := hreads.scan (2 * (st.print j).length + 2) limit [] (by omega) endsNumber_nil
  rw [List.append_nil] at hscan
  rw [loadsText, hblank, hscan]
  by_cases hd : j.depth ≤ limit
  · simp only [if_pos hd]
    rfl
  · simp only [if_neg hd]

end JsonStyle

/-- **A printed value is loaded** by {lit}`json.loads` when it does not nest too deep. -/
theorem loadsText_dumps {j : Json} (hj : j.WellFormed) (hints : j.IntsPrint) (limit : Nat) :
    loadsText limit (dumps j) =
      if j.depth ≤ limit then .ok j.reread else .error .recursionError := by
  rw [dumps_eq]
  exact asciiStyle.loadsText_print hj hints limit

/-! ## What comes back -/

/-- A new key goes to the end. -/
theorem setField_of_notMem {k : PyStr} {v : Json} {fields : List (PyStr × Json)}
    (h : k ∉ fields.map Prod.fst) : setField k v fields = fields ++ [(k, v)] := by
  induction fields with
  | nil => rfl
  | cons f rest ih =>
      obtain ⟨l, w⟩ := f
      rw [List.map_cons, List.mem_cons, not_or] at h
      rw [setField, if_neg (Ne.symm h.1), ih h.2, List.cons_append]

/-- A key that is there keeps its place. -/
theorem setField_length_of_mem {k : PyStr} {v : Json} {fields : List (PyStr × Json)}
    (h : k ∈ fields.map Prod.fst) : (setField k v fields).length = fields.length := by
  induction fields with
  | nil => contradiction
  | cons f rest ih =>
      obtain ⟨l, w⟩ := f
      by_cases hl : l = k
      · rw [setField, if_pos hl, List.length_cons, List.length_cons]
      · have hmem : k ∈ rest.map Prod.fst := by
          rcases List.mem_cons.mp h with rfl | hmem
          · contradiction
          · exact hmem
        rw [setField, if_neg hl, List.length_cons, List.length_cons, ih hmem]

theorem setField_length_le (k : PyStr) (v : Json) (fields : List (PyStr × Json)) :
    (setField k v fields).length ≤ fields.length + 1 := by
  by_cases h : k ∈ fields.map Prod.fst
  · rw [setField_length_of_mem h]
    omega
  · rw [setField_of_notMem h, List.length_append, List.length_singleton]

/-- The fields with their keys paired up. -/
def joinKeys (fields : List (PyStr × Json)) : List (PyStr × Json) :=
  fields.map fun f => (joinSurrogates f.1, f.2)

theorem rereadInto_length_le (seen fields : List (PyStr × Json)) :
    (rereadInto seen fields).length ≤ seen.length + fields.length := by
  induction fields generalizing seen with
  | nil => exact Nat.le_refl _
  | cons f rest ih =>
      have hstep := setField_length_le (joinSurrogates f.1) f.2 seen
      have hrest := ih (setField (joinSurrogates f.1) f.2 seen)
      rw [List.length_cons]
      exact hrest.trans (by omega)

/-- Distinct keys do not overwrite each other. -/
theorem rereadInto_of_nodup {seen fields : List (PyStr × Json)}
    (h : ((seen ++ joinKeys fields).map Prod.fst).Nodup) :
    rereadInto seen fields = seen ++ joinKeys fields := by
  induction fields generalizing seen with
  | nil => rw [joinKeys, List.map_nil, List.append_nil, rereadInto, List.foldl_nil]
  | cons f rest ih =>
      have hnew : joinSurrogates f.1 ∉ seen.map Prod.fst := by
        rw [List.map_append] at h
        intro hmem
        exact (List.nodup_append.mp h).2.2 _ hmem _ List.mem_cons_self rfl
      have hsplit : seen ++ joinKeys (f :: rest) =
          (seen ++ [(joinSurrogates f.1, f.2)]) ++ joinKeys rest := by
        simp [joinKeys]
      have hstep : rereadInto seen (f :: rest) =
          rereadInto (seen ++ [(joinSurrogates f.1, f.2)]) rest := by
        rw [← setField_of_notMem hnew]
        rfl
      rw [hsplit] at h
      rw [hstep, ih h, hsplit]

/-- When nothing was overwritten, every field is there. -/
theorem rereadInto_of_length (seen fields : List (PyStr × Json))
    (h : (rereadInto seen fields).length = seen.length + fields.length) :
    rereadInto seen fields = seen ++ joinKeys fields := by
  induction fields generalizing seen with
  | nil => rw [joinKeys, List.map_nil, List.append_nil, rereadInto, List.foldl_nil]
  | cons f rest ih =>
      have hstep : rereadInto seen (f :: rest) =
          rereadInto (setField (joinSurrogates f.1) f.2 seen) rest := rfl
      have hrest := rereadInto_length_le (setField (joinSurrogates f.1) f.2 seen) rest
      have hnew : joinSurrogates f.1 ∉ seen.map Prod.fst := by
        intro hmem
        rw [setField_length_of_mem hmem, ← hstep, h, List.length_cons] at hrest
        omega
      rw [hstep, setField_of_notMem hnew] at h ⊢
      rw [List.length_cons] at h
      rw [ih _ (by rw [h, List.length_append, List.length_singleton]; omega)]
      simp [joinKeys]

/-- An object comes back as it was when its keys and its values do. -/
theorem reread_obj_iff {fields : List (PyStr × Json)} (hkeys : (fields.map Prod.fst).Nodup) :
    (Json.obj fields).reread = (Json.obj fields).sorted ↔
      ∀ f ∈ fields, joinSurrogates f.1 = f.1 ∧ f.2.reread = f.2.sorted := by
  have hreread : (Json.obj fields).reread =
      .obj (rereadInto [] (rereadFields (sortFields fields))) := by
    rw [Json.reread, rereadFields_eq, rereadFields_eq, sortFields_map]
  have hsorted : (Json.obj fields).sorted = .obj (sortedFields (sortFields fields)) := by
    rw [Json.sorted, sortedFields_eq, sortedFields_eq, sortFields_map]
  have hmem : (∀ f ∈ fields, joinSurrogates f.1 = f.1 ∧ f.2.reread = f.2.sorted) ↔
      ∀ f ∈ sortFields fields, joinSurrogates f.1 = f.1 ∧ f.2.reread = f.2.sorted := by
    simp only [mem_sortFields]
  replace hkeys : ((sortFields fields).map Prod.fst).Nodup :=
    ((sortFields_perm fields).map Prod.fst).nodup_iff.mpr hkeys
  rw [hreread, hsorted, hmem, Json.obj.injEq, sortedFields_eq, rereadFields_eq]
  generalize sortFields fields = fields at hkeys ⊢
  have hjoin : joinKeys (fields.map fun f => (f.1, f.2.reread)) =
      fields.map fun f => (joinSurrogates f.1, f.2.reread) := by
    simp [joinKeys]
  constructor
  · intro heq f hf
    have hlen := congrArg List.length heq
    rw [List.length_map] at hlen
    have hall := rereadInto_of_length [] (fields.map fun f => (f.1, f.2.reread))
      (by simpa using hlen)
    rw [heq, List.nil_append, hjoin] at hall
    have hpair := List.map_inj_left.mp hall f hf
    exact ⟨(congrArg Prod.fst hpair).symm, (congrArg Prod.snd hpair).symm⟩
  · intro hall
    have hmap : (fields.map fun f => (joinSurrogates f.1, f.2.reread)) =
        fields.map fun f => (f.1, f.2.sorted) :=
      List.map_inj_left.mpr fun f hf => Prod.ext (hall f hf).1 (hall f hf).2
    rw [rereadInto_of_nodup, List.nil_append, hjoin, hmap]
    rw [List.nil_append, hjoin, hmap, List.map_map]
    exact hkeys

/-- **A value comes back as it was** exactly when no text in it has a high surrogate directly
followed by a low one. -/
theorem reread_eq_sorted_iff {j : Json} (hj : j.WellFormed) :
    j.reread = j.sorted ↔ ∀ s ∈ j.texts, Unpaired s := by
  induction hj with
  | null => simp [Json.reread, Json.sorted, Json.texts]
  | bool b => simp [Json.reread, Json.sorted, Json.texts]
  | int z => simp [Json.reread, Json.sorted, Json.texts]
  | float _ => simp [Json.reread, Json.sorted, Json.texts]
  | str _ =>
      rw [Json.reread, Json.sorted, Json.texts, Json.str.injEq, List.forall_mem_singleton]
      · exact joinSurrogates_eq_self_iff _
      all_goals simp
  | arr _ ih =>
      rw [Json.reread, Json.sorted, Json.texts, Json.arr.injEq, rereadItems_eq, sortedItems_eq,
        List.map_inj_left, forall_itemsTexts]
      exact forall₂_congr ih
  | obj hkeys _ _ ih =>
      rw [reread_obj_iff hkeys, Json.texts, forall_fieldsTexts]
      refine forall₂_congr fun f hf => ?_
      rw [joinSurrogates_eq_self_iff, ih f hf]

/-! ## Printable ASCII -/

/-- A printable ASCII character. -/
def IsPlain (c : Nat) : Prop :=
  32 ≤ c ∧ c ≤ 126

instance (c : Nat) : Decidable (IsPlain c) :=
  inferInstanceAs (Decidable (_ ∧ _))

theorem IsDigit.plain {c : Nat} (h : IsDigit c) : IsPlain c := by
  unfold IsDigit at h
  unfold IsPlain
  omega

/-- Laid out digits are printable. -/
theorem layoutDigits_plain {digits : PyStr} (h : ∀ c ∈ digits, IsDigit c) (p : Int) :
    ∀ c ∈ layoutDigits digits p, IsPlain c := by
  have hdigits : ∀ c ∈ digits, IsPlain c := fun c hc => (h c hc).plain
  have hzeros : ∀ k, ∀ c ∈ List.replicate k 48, IsPlain c :=
    fun _ c hc => (IsDigit.zeros c hc).plain
  have htake : ∀ k, ∀ c ∈ digits.take k, IsPlain c :=
    fun _ c hc => hdigits c (List.mem_of_mem_take hc)
  have hdrop : ∀ k, ∀ c ∈ digits.drop k, IsPlain c :=
    fun _ c hc => hdigits c (List.mem_of_mem_drop hc)
  have hexp : ∀ c ∈ exponentDigits (p - 1), IsPlain c :=
    fun c hc => ((exponentDigits_spec (p - 1)).1 c hc).plain
  unfold layoutDigits
  by_cases hplain : -4 < p ∧ p ≤ 16
  · rw [if_pos hplain]
    by_cases hbelow : p ≤ 0
    · rw [if_pos hbelow]
      simp only [List.forall_mem_append]
      exact ⟨⟨by decide, hzeros _⟩, hdigits⟩
    · rw [if_neg hbelow]
      simp only [List.forall_mem_append]
      refine ⟨⟨⟨htake _, hzeros _⟩, by decide⟩, ?_⟩
      split
      · decide
      · exact hdrop _
  · rw [if_neg hplain]
    simp only [List.forall_mem_append]
    refine ⟨⟨⟨htake 1, ?_⟩, ?_⟩, hexp⟩
    · split
      · exact fun c hc => absurd hc List.not_mem_nil
      · exact List.forall_mem_cons.mpr ⟨by decide, hdrop 1⟩
    · split <;> decide

/-- A printed float is printable. -/
theorem repr_plain (x : PyFloat) : ∀ c ∈ x.repr, IsPlain c := by
  cases x with
  | nan => decide
  | inf neg => cases neg <;> decide
  | finite neg mant exp =>
      by_cases hm : mant = 0
      · subst hm
        cases neg with
        | true => exact (by decide : ∀ c ∈ py "-0.0", IsPlain c)
        | false => exact (by decide : ∀ c ∈ py "0.0", IsPlain c)
      · obtain ⟨num, den, hfraction, -, -⟩ := finite_fraction mant exp
        obtain ⟨⟨d, p⟩, hshort⟩ :
            ∃ r, shortestDigits neg num den (decimalPoint num den 700 (-330)) 17 1 = r := ⟨_, rfl⟩
        rw [PyFloat.repr_finite neg hm hfraction hshort]
        refine List.forall_mem_append.mpr ⟨?_, layoutDigits_plain (fun c hc => ?_) p⟩
        · cases neg <;> decide
        · obtain ⟨k, hk⟩ := trimZeros_append (natDigits d)
          refine natDigits_bounds (n := d) ?_
          rw [hk]
          exact List.mem_append_left _ hc

/-- A hexadecimal digit is printable. -/
theorem hex4_plain (n : Nat) : ∀ c ∈ hex4 n, IsPlain c := by
  have hdigit : ∀ d < 16, IsPlain (if d < 10 then 48 + d else 87 + d) := by decide
  have hmod : ∀ m, m % 16 < 16 := fun m => Nat.mod_lt m (by decide)
  simp only [hex4, List.map_cons, List.map_nil, List.forall_mem_cons, List.not_mem_nil]
  exact ⟨hdigit _ (hmod _), hdigit _ (hmod _), hdigit _ (hmod _), hdigit _ (hmod _),
    fun _ h => h.elim⟩

/-- An escaped character is printable. -/
theorem escapeChar_plain (c : Nat) : ∀ e ∈ escapeChar c, IsPlain e := by
  have hescape : ∀ e ∈ py "\\u", IsPlain e := by decide
  unfold escapeChar
  split_ifs with hquote hback hnewline hreturn htab hfeed hbackspace hplain hlow
  · decide
  · decide
  · decide
  · decide
  · decide
  · decide
  · decide
  · exact List.forall_mem_singleton.mpr hplain
  · exact List.forall_mem_append.mpr ⟨hescape, hex4_plain _⟩
  · simp only [List.forall_mem_append]
    exact ⟨⟨⟨hescape, hex4_plain _⟩, hescape⟩, hex4_plain _⟩

/-- Joined texts are printable when the texts and the separator are. -/
theorem joinStr_plain {sep : PyStr} (hsep : ∀ c ∈ sep, IsPlain c) {parts : List PyStr}
    (h : ∀ s ∈ parts, ∀ c ∈ s, IsPlain c) : ∀ c ∈ joinStr sep parts, IsPlain c := by
  induction parts with
  | nil => exact fun c hc => absurd hc List.not_mem_nil
  | cons s more ih =>
      have hs := h s List.mem_cons_self
      cases more with
      | nil => exact hs
      | cons t more =>
          have hmore := ih fun u hu => h u (List.mem_cons_of_mem s hu)
          rw [joinStr_cons sep (List.cons_ne_nil t more)]
          simp only [List.forall_mem_append]
          exact ⟨⟨hs, hsep⟩, hmore⟩

theorem quote_plain (s : PyStr) : ∀ c ∈ quote s, IsPlain c := by
  simp only [quote, List.forall_mem_append, List.forall_mem_cons]
  refine ⟨⟨by decide, fun c hc => ?_⟩, by decide, fun _ hc => absurd hc List.not_mem_nil⟩
  obtain ⟨e, -, he⟩ := List.mem_flatMap.mp hc
  exact escapeChar_plain e c he

mutual

/-- **What {lit}`json.dumps` writes is printable ASCII.** -/
theorem dumps_plain : (j : Json) → ∀ c ∈ dumps j, IsPlain c
  | .null => by decide
  | .bool true => by decide
  | .bool false => by decide
  | .int z => fun c hc => by
      have hbounds := intRepr_bounds hc
      unfold IsPlain
      omega
  | .float x => repr_plain x
  | .str s => quote_plain s
  | .arr items => by
      simp only [dumps, List.forall_mem_append, List.forall_mem_cons]
      exact ⟨⟨by decide, joinStr_plain (by decide) (dumpsList_plain items)⟩, by decide,
        fun _ hc => absurd hc List.not_mem_nil⟩
  | .obj fields => by
      simp only [dumps, printObj, List.forall_mem_append, List.forall_mem_cons]
      refine ⟨⟨by decide, joinStr_plain (by decide) fun s hs => ?_⟩, by decide,
        fun _ hc => absurd hc List.not_mem_nil⟩
      obtain ⟨f, hf, rfl⟩ := List.mem_map.mp hs
      rw [foldr_insertField, mem_sortFields] at hf
      simp only [List.forall_mem_append]
      exact ⟨⟨quote_plain f.1, by decide⟩, dumpsFields_plain fields f hf⟩

theorem dumpsList_plain : (items : List Json) → ∀ s ∈ dumpsList items, ∀ c ∈ s, IsPlain c
  | [] => fun _ hs => absurd hs List.not_mem_nil
  | j :: rest => List.forall_mem_cons.mpr ⟨dumps_plain j, dumpsList_plain rest⟩

theorem dumpsFields_plain : (fields : List (PyStr × Json)) →
    ∀ f ∈ dumpsFields fields, ∀ c ∈ f.2, IsPlain c
  | [] => fun _ hf => absurd hf List.not_mem_nil
  | (_, v) :: rest => List.forall_mem_cons.mpr ⟨dumps_plain v, dumpsFields_plain rest⟩

end

/-! ## How long a printed value is -/

/-- Joined texts are as long as the separators between them and a character for each. -/
theorem joinStr_length_ge (sep : PyStr) {parts : List PyStr} (hne : ∀ s ∈ parts, s ≠ []) :
    (sep.length + 1) * parts.length ≤ (joinStr sep parts).length + sep.length := by
  induction parts with
  | nil => simp
  | cons s more ih =>
      have hs : 0 < s.length := List.length_pos_of_ne_nil (hne s List.mem_cons_self)
      cases more with
      | nil =>
          rw [joinStr, List.length_singleton]
          omega
      | cons t more =>
          have hmore := ih fun u hu => hne u (List.mem_cons_of_mem _ hu)
          rw [joinStr_cons sep (List.cons_ne_nil t more), List.length_append, List.length_append,
            List.length_cons, Nat.mul_succ]
          omega

/-- A text is not longer than the text it is joined into. -/
theorem length_le_joinStr (sep : PyStr) {parts : List PyStr} {s : PyStr} (hs : s ∈ parts) :
    s.length ≤ (joinStr sep parts).length := by
  induction parts with
  | nil => contradiction
  | cons t more ih =>
      cases more with
      | nil =>
          obtain rfl := List.mem_singleton.mp hs
          exact Nat.le_refl _
      | cons u more =>
          rw [joinStr_cons sep (List.cons_ne_nil u more), List.length_append, List.length_append]
          rcases List.mem_cons.mp hs with rfl | hs
          · omega
          · have := ih hs
            omega

theorem dumps_ne_nil (j : Json) : dumps j ≠ [] := by
  cases j with
  | null => decide
  | bool b => cases b <;> decide
  | int z =>
      obtain ⟨c, rest, hz, -⟩ := intRepr_head z
      rw [dumps, hz]
      exact List.cons_ne_nil c rest
  | float x => exact x.repr_ne_nil
  | str s => exact List.cons_ne_nil _ _
  | arr items => exact List.cons_ne_nil _ _
  | obj fields => exact List.cons_ne_nil _ _

/-- An array is written with three characters for each item. -/
theorem dumps_arr_length_ge (items : List Json) :
    3 * items.length ≤ (dumps (.arr items)).length := by
  have hne : ∀ s ∈ items.map asciiStyle.print, s ≠ [] := by
    intro s hs
    obtain ⟨j, -, rfl⟩ := List.mem_map.mp hs
    rw [← dumps_eq]
    exact dumps_ne_nil j
  have hjoin := joinStr_length_ge (asciiStyle.separator 44) hne
  rw [List.length_map, show (asciiStyle.separator 44).length = 2 from rfl] at hjoin
  rw [dumps_eq, JsonStyle.print_arr, List.length_append, List.length_cons, List.length_singleton]
  omega

/-- A value is not longer than the object it is written in. -/
theorem dumps_length_le_of_mem {fields : List (PyStr × Json)} {f : PyStr × Json}
    (hf : f ∈ fields) : (dumps f.2).length ≤ (dumps (.obj fields)).length := by
  rw [dumps_eq, dumps_eq, JsonStyle.print_obj]
  have hpart : asciiStyle.field (f.1, asciiStyle.print f.2) ∈
      (sortFields fields).map fun f => asciiStyle.field (f.1, asciiStyle.print f.2) :=
    List.mem_map_of_mem (mem_sortFields.mpr hf)
  have hlong := length_le_joinStr (asciiStyle.separator 44) hpart
  rw [JsonStyle.field, List.length_append] at hlong
  rw [List.length_append, List.length_cons]
  dsimp only at hlong
  omega

end Python
end FrigateXdna
