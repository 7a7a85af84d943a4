import FrigateXdna.Python.Text

/-!
# Lines and words of decoded text

What the code does with the text of a log file: {lit}`decode(errors="replace")`,
{lit}`str.splitlines` and {lit}`str.split`.

Main results:

- Definition {lit}`decodeReplace`: UTF-8 with U+FFFD for every maximal ill-formed part.
- Definition {lit}`splitLines`: the lines of a text, whatever ends them.
- Theorem {lit}`decodeReplace_eq`: what decodes strictly decodes to the same text.
-/

namespace FrigateXdna
namespace Python

/-! ## Decoding with replacement -/

/-- {lit}`decode(errors="replace")` with {lit}`need` continuation bytes outstanding. -/
def replaceGo : Bytes → (need cp lo hi : Nat) → PyStr
  | [], 0, _, _, _ => []
  | [], _ + 1, _, _, _ => [0xFFFD]
  | b :: bs, need, cp, lo, hi =>
      if 0 < need ∧ lo ≤ b.toNat ∧ b.toNat ≤ hi then
        let cp' := cp * 64 + (b.toNat - 0x80)
        if need = 1 then cp' :: replaceGo bs 0 0 0 0
        else replaceGo bs (need - 1) cp' 0x80 0xBF
      else
        -- The byte does not continue the sequence: it starts another one.
        let torn := if 0 < need then [0xFFFD] else []
        if b.toNat < 0x80 then torn ++ b.toNat :: replaceGo bs 0 0 0 0
        else
          match utf8Lead b.toNat with
          | none => torn ++ 0xFFFD :: replaceGo bs 0 0 0 0
          | some (need', cp', lo', hi') => torn ++ replaceGo bs need' cp' lo' hi'

/-- {lit}`data.decode(errors="replace")`. -/
def decodeReplace (data : Bytes) : PyStr :=
  replaceGo data 0 0 0 0

theorem replaceGo_eq {data : Bytes} {need cp lo hi : Nat} {text : PyStr}
    (h : utf8Go data need cp lo hi = some text) : replaceGo data need cp lo hi = text := by
  induction data generalizing need cp lo hi text with
  | nil =>
      cases need with
      | zero => simpa [utf8Go, replaceGo] using h
      | succ n => simp [utf8Go] at h
  | cons b bs ih =>
      cases need with
      | zero =>
          unfold utf8Go at h
          unfold replaceGo
          rw [if_neg (by omega)]
          split at h
          next hascii =>
            obtain ⟨rest, hrest, rfl⟩ := Option.map_eq_some_iff.mp h
            simp [hascii, ih hrest]
          next hascii =>
            rw [if_neg hascii]
            cases hlead : utf8Lead b.toNat with
            | none =>
                rw [hlead] at h
                contradiction
            | some lead =>
                rw [hlead] at h
                exact ih h
      | succ n =>
          unfold utf8Go at h
          unfold replaceGo
          split at h
          next hbyte =>
            rw [if_pos ⟨by omega, hbyte⟩]
            dsimp only at h ⊢
            split at h
            next hn =>
              obtain ⟨rest, hrest, rfl⟩ := Option.map_eq_some_iff.mp h
              rw [if_pos (by omega), ih hrest]
            next hn =>
              rw [if_neg (by omega)]
              exact ih h
          · contradiction

/-- **What decodes strictly** decodes to the same text with replacement. -/
theorem decodeReplace_eq {data : Bytes} {text : PyStr} (h : utf8Decode data = some text) :
    decodeReplace data = text :=
  replaceGo_eq h

/-! ## Lines and words -/

/-- The characters that end a line for {lit}`str.splitlines`. -/
def isLineEnd (c : Nat) : Bool :=
  [10, 11, 12, 13, 28, 29, 30, 0x85, 0x2028, 0x2029].contains c

/-- {lit}`text.splitlines()`; {lit}`line` is what the current line has so far, last
character first. -/
def splitLinesGo : PyStr → (line : PyStr) → List PyStr
  | [], line => if line.isEmpty then [] else [line.reverse]
  | 13 :: 10 :: rest, line => line.reverse :: splitLinesGo rest []
  | c :: rest, line =>
      if isLineEnd c then line.reverse :: splitLinesGo rest []
      else splitLinesGo rest (c :: line)

/-- {lit}`text.splitlines()`. -/
def splitLines (text : PyStr) : List PyStr :=
  splitLinesGo text []

/-- {lit}`text.split()`; {lit}`word` is what the current word has so far, last character
first. -/
def splitWordsGo : PyStr → (word : PyStr) → List PyStr
  | [], word => if word.isEmpty then [] else [word.reverse]
  | c :: rest, word =>
      if isSpace c then
        if word.isEmpty then splitWordsGo rest [] else word.reverse :: splitWordsGo rest []
      else splitWordsGo rest (c :: word)

/-- {lit}`text.split()`. -/
def splitWords (text : PyStr) : List PyStr :=
  splitWordsGo text []

example : splitLines (py "a\x0d\x0ab\x0a\x0ac") = [py "a", py "b", [], py "c"] := by decide

example : splitWords (py " OK  f0 size=1 ") = [py "OK", py "f0", py "size=1"] := by decide

end Python
end FrigateXdna
