import FrigateXdna.Library.Regex
import FrigateXdna.Cache.Keys

/-!
# Redaction of text that leaves the machine

Six substitutions run over a text, one after the other: references to Plus models become
pseudonyms, the credentials of authorization headers and the values of token fields become
marks, so do the queries of URLs, and what looks like a key with its secret is removed.  Nested
values are sanitized text by text.

Main results:

- Definition {lit}`sanitizeText`: the substitutions, in their order.
- Definition {lit}`sanitizeObj`: a nested value.
- Theorem {lit}`bearer_readBy`, {lit}`tokenField_readBy`, {lit}`anyQs_readBy`: what patterns find
  is what scanners read that never go back.
- Theorem {lit}`signedQs_found`, {lit}`signedQs_missed`, {lit}`keypair_found`,
  {lit}`keypair_missed`: what the other patterns find, and where they find nothing.
-/

namespace FrigateXdna
namespace Redact

open Python Library

/-! ## Classes of characters -/

/-- {lit}`[A-Za-z0-9]`. -/
def isAlnum (c : Nat) : Bool :=
  decide (48 ≤ c ∧ c ≤ 57 ∨ 65 ≤ c ∧ c ≤ 90 ∨ 97 ≤ c ∧ c ≤ 122)

/-- {lit}`[A-Za-z0-9_.:-]`. -/
def isIdChar (c : Nat) : Bool :=
  isAlnum c || c == 95 || c == 46 || c == 58 || c == 45

/-- {lit}`[A-Za-z0-9-]`. -/
def isKeyChar (c : Nat) : Bool :=
  isAlnum c || c == 45

/-- {lit}`[:=]`. -/
def isSep (c : Nat) : Bool :=
  c == 58 || c == 61

/-- {lit}`[_-]`. -/
def isDash (c : Nat) : Bool :=
  c == 95 || c == 45

/-- A single or a double quote. -/
def isQuote (c : Nat) : Bool :=
  c == 34 || c == 39

/-- White space, a quote or a comma. -/
def isBreak (c : Nat) : Bool :=
  isSpace c || isQuote c || c == 44

/-- What a credential in a header is made of: no white space, quote, comma, semicolon or
closing brace. -/
def isCredential (c : Nat) : Bool :=
  !(isBreak c || c == 59 || c == 125)

/-- What the value of a token field is made of: no quote, comma, closing brace or white
space. -/
def isTokenChar (c : Nat) : Bool :=
  !(isBreak c || c == 125)

/-- What a query is made of: no white space, quote, comma or semicolon. -/
def isQueryChar (c : Nat) : Bool :=
  !(isBreak c || c == 59)

/-- What comes before a query: the same, without a question mark. -/
def isUrlChar (c : Nat) : Bool :=
  isQueryChar c && c != 63

/-- A letter in lower case, as matching that ignores case sees it.  Four letters beyond ASCII
count as ASCII ones. -/
def foldCase (c : Nat) : Nat :=
  if 65 ≤ c ∧ c ≤ 90 then c + 32
  else if c = 0x130 ∨ c = 0x131 then 105
  else if c = 0x17F then 115
  else if c = 0x212A then 107
  else c

/-- The characters of a literal. -/
def exactly (s : String) : List (Nat → Bool) :=
  (py s).map fun l c => c == l

/-- The characters of a literal in lower case, when case is ignored. -/
def anyCase (s : String) : List (Nat → Bool) :=
  (py s).map fun l c => foldCase c == l

/-! ## Patterns -/

/-- {lit}`_PLUS_REF_RE`. -/
def plusRef : Pattern Nat where
  regex := .seq (.chars (exactly "plus://"))
    (.group 1 (.seq (.one isAlnum) (.many isIdChar (some 127))))
  consumes := by decide

/-- The name of an authorization header up to its credential, without the scheme. -/
def headerRegex : Regex Nat :=
  .seq (.chars (anyCase "authorization"))
    (.seq (.many isSpace none) (.seq (.one isSep) (.many isSpace none)))

/-- The scheme of an authorization header. -/
def schemeRegex : Regex Nat :=
  .seq (.chars (anyCase "bearer")) (.plus isSpace)

/-- {lit}`_BEARER_RE`. -/
def bearer : Pattern Nat where
  regex := .seq (.group 1 (.seq headerRegex (.opt schemeRegex))) (.plus isCredential)
  consumes := by decide

/-- Two words with a dash between them, or without. -/
def dashed (first second : String) : Regex Nat :=
  .seq (.chars (anyCase first)) (.seq (.opt (.one isDash)) (.chars (anyCase second)))

/-- An optional quote. -/
def quoteRegex : Regex Nat :=
  .alt (.one fun c => c == 34) (.alt (.one fun c => c == 39) .empty)

/-- The name of a token field. -/
def fieldName : Regex Nat :=
  .alt (dashed "access" "token") (.alt (dashed "api" "key")
    (.alt (.chars (anyCase "secret")) (dashed "signed" "url")))

/-- A token field up to its value. -/
def fieldRegex : Regex Nat :=
  .seq (.group 1 quoteRegex) (.seq (.group 2 fieldName) (.seq (.group 3 quoteRegex)
    (.seq (.group 4 (.seq (.many isSpace none) (.seq (.one isSep) (.many isSpace none))))
      (.group 5 quoteRegex))))

/-- {lit}`_TOKEN_FIELD_RE`. -/
def tokenField : Pattern Nat where
  regex := .seq fieldRegex (.plus isTokenChar)
  consumes := by decide

/-- A URL up to its query, its scheme read as given. -/
def urlRegex (literal : String → List (Nat → Bool)) : Regex Nat :=
  .seq (.group 1 (.seq (.chars (literal "http")) (.seq (.opt (.chars (literal "s")))
    (.seq (.chars (literal "://")) (.plus isUrlChar))))) (.one fun c => c == 63)

/-- The names whose values sign a URL. -/
def signatureName : Regex Nat :=
  .alt (.chars (anyCase "sig")) (.alt (.chars (anyCase "signature"))
    (.alt (.chars (anyCase "x-amz-signature")) (.alt (.chars (anyCase "token"))
      (.alt (.chars (anyCase "expires")) (.chars (anyCase "se"))))))

/-- What makes a query a signed one. -/
def signedRegex : Regex Nat :=
  .seq (.many isQueryChar none) (.seq (.group 2 signatureName)
    (.seq (.one fun c => c == 61) (.many isQueryChar none)))

/-- {lit}`_SIGNED_QS_RE`. -/
def signedQs : Pattern Nat where
  regex := .seq (urlRegex anyCase) signedRegex
  consumes := by decide

/-- {lit}`_ANY_QS_RE`. -/
def anyQs : Pattern Nat where
  regex := .seq (urlRegex exactly) (.plus isQueryChar)
  consumes := by decide

/-- What redaction asks the rest of the interpreter: HMAC-SHA256, and which characters beyond
ASCII belong to words. -/
structure Env where
  hmac : Bytes → Bytes → Bytes
  wideWord : Nat → Bool

/-- A character of a word. -/
def isWord (wideWord : Nat → Bool) (c : Nat) : Bool :=
  if c < 128 then isAlnum c || c == 95 else wideWord c

/-- {lit}`_KEYPAIR_RE`. -/
def keypair (wideWord : Nat → Bool) : Pattern Nat where
  regex := .seq (.boundary (isWord wideWord)) (.seq (.times isKeyChar 8)
    (.seq (.many isKeyChar none) (.seq (.one fun c => c == 58) (.seq (.times isAlnum 32)
      (.seq (.many isAlnum none) (.boundary (isWord wideWord)))))))
  consumes := Nat.zero_lt_succ _

/-! ## Sanitizing -/

/-- A byte in hexadecimal. -/
def hexByte (b : UInt8) : PyStr :=
  [b.toNat / 16, b.toNat % 16].map fun d => if d < 10 then 48 + d else 87 + d

/-- {lit}`plus_alias`.  What the pattern takes for an identifier is ASCII, so its encoding
never fails. -/
def plusAlias (env : Env) (key : Bytes) (modelId : PyStr) : PyStr :=
  let digest := (env.hmac key ((utf8Encode modelId).toOption.getD [])).flatMap hexByte
  py "plus:" ++ digest.take 12

/-- The mark of a credential. -/
def redacted : PyStr :=
  py "<redacted>"

/-- Replaces everything behind the given groups. -/
def keeping (groups : List Nat) (mark : PyStr) (m : Point Nat) : PyStr :=
  groups.flatMap m.group ++ mark

/-- {lit}`sanitize_text`. -/
def sanitizeText (env : Env) (key : Bytes) (text : PyStr) : PyStr :=
  let out := plusRef.sub (fun m => plusAlias env key (m.group 1)) none text
  let out := bearer.sub (keeping [1] redacted) none out
  let out := tokenField.sub (keeping [1, 2, 3, 4, 5] redacted) none out
  let out := signedQs.sub (keeping [1] (63 :: redacted)) none out
  let out := anyQs.sub (keeping [1] (63 :: redacted)) none out
  (keypair env.wideWord).sub (fun _ => py "<redacted-keypair>") none out

mutual

/-- {lit}`sanitize_obj`. -/
def sanitizeObj (env : Env) (key : Bytes) : Json → Json
  | .str s => .str (sanitizeText env key s)
  | .arr items => .arr (sanitizeItems env key items)
  | .obj fields => .obj (sanitizeFields env key fields)
  | j => j

/-- The items of a list. -/
def sanitizeItems (env : Env) (key : Bytes) : List Json → List Json
  | [] => []
  | j :: rest => sanitizeObj env key j :: sanitizeItems env key rest

/-- The values of a dictionary; its keys are left alone. -/
def sanitizeFields (env : Env) (key : Bytes) : List (PyStr × Json) → List (PyStr × Json)
  | [] => []
  | (k, j) :: rest => (k, sanitizeObj env key j) :: sanitizeFields env key rest

end

/-! ## What the patterns find -/

theorem not_space_of_sep {c : Nat} (h : isSpace c = true) : isSep c = false := by
  cases hc : isSep c with
  | false => rfl
  | true =>
      simp only [isSep, Bool.or_eq_true, beq_iff_eq] at hc
      rcases hc with rfl | rfl <;> exact absurd h (by decide)

theorem not_space_of_quote {c : Nat} (h : isQuote c = true) : isSpace c = false := by
  simp only [isQuote, Bool.or_eq_true, beq_iff_eq] at h
  rcases h with rfl | rfl <;> decide

theorem not_sep_of_quote {c : Nat} (h : isQuote c = true) : isSep c = false := by
  simp only [isQuote, Bool.or_eq_true, beq_iff_eq] at h
  rcases h with rfl | rfl <;> decide

/-- A scanner in front of which literals stand refuses what does not begin with their first
character. -/
theorem stuck_chars {p q : Nat → Bool} {first : Nat → Bool} {classes : List (Nat → Bool)}
    (h : ∀ c, p c = true → first c = false) :
    (Scanner.chars (first :: classes)).Stuck p q :=
  (Scanner.Stuck.one h (fun _ => false)).andThen (Scanner.Stuck.never _ _)

/-- What ends a query stays as it is when case is ignored, and is no letter. -/
theorem foldCase_of_end {c : Nat} (h : isQueryChar c = false) :
    foldCase c = c ∧ c ≠ 45 ∧ ¬ (97 ≤ c ∧ c ≤ 122) := by
  simp only [isQueryChar, isBreak, isSpace, isQuote, wideSpaces, Bool.not_eq_false',
    Bool.or_eq_true, decide_eq_true_eq, beq_iff_eq, List.contains_eq_mem, List.mem_cons,
    List.not_mem_nil, or_false] at h
  unfold foldCase
  split_ifs <;> omega

theorem not_queryChar_of_break {c : Nat} (h : isSpace c = true ∨ isQuote c = true) :
    isQueryChar c = false := by
  rcases h with h | h <;> simp [isQueryChar, isBreak, h]

/-- No white space and no quote counts as a letter when case is ignored. -/
theorem foldCase_ne {l c : Nat} (hl : 97 ≤ l) (hc : isSpace c = true ∨ isQuote c = true)
    (hletter : l ≤ 122) : (foldCase c == l) = false := by
  obtain ⟨hfold, -, hnot⟩ := foldCase_of_end (not_queryChar_of_break hc)
  rw [hfold, beq_eq_false_iff_ne]
  omega

/-- What a scanner of a word refuses, a scanner that begins with it refuses. -/
theorem andThen_none {σ τ : Scanner Nat} {s : PyStr} (h : σ s = none) : σ.andThen τ s = none := by
  simp [Scanner.andThen, h]

/-! ### References -/

/-- Reads a reference up to the first character of its identifier. -/
def plusScan : Scanner Nat :=
  (Scanner.chars (exactly "plus://")).andThen (Scanner.one isAlnum)

theorem plusRef_found {before : Option Nat} {s : PyStr} {m : Point Nat}
    (h : plusRef.first before s = some m) : ∃ t, s = 112 :: t := by
  obtain ⟨z, hz, -⟩ := List.mem_flatMap.mp (List.mem_of_mem_head? h)
  obtain ⟨y, hy, -⟩ := Regex.mem_chars.mp hz
  obtain ⟨x, hx, -⟩ := Scanner.andThen_eq_some.mp hy
  cases s with
  | nil => contradiction
  | cons c t =>
      by_cases hc : c = 112
      · exact ⟨t, by rw [hc]⟩
      · change Scanner.one (fun c => c == 112) (c :: t) = some x at hx
        simp [Scanner.one, hc] at hx

/-- A reference is found exactly where the first character of its identifier is read. -/
theorem plusRef_first_eq_none {before : Option Nat} {s : PyStr} :
    plusRef.first before s = none ↔ plusScan s = none := by
  have hends : ∀ x : Point Nat, (Regex.group 1 (.seq (.one isAlnum)
      (.many isIdChar (some 127)))).ends x = [] ↔ Scanner.one isAlnum x.rest = none := by
    intro x
    cases hrest : x.rest with
    | nil => simp [Regex.ends, hrest, Scanner.one]
    | cons c t =>
        by_cases hc : isAlnum c = true
        · simp [Regex.ends, hrest, Scanner.one, hc, runs_ne_nil]
        · simp [Regex.ends, hrest, Scanner.one, hc]
  unfold Pattern.first
  rw [List.head?_eq_none_iff]
  change List.flatMap _ _ = [] ↔ _
  rw [List.flatMap_eq_nil_iff]
  constructor
  · intro h
    cases hy : Scanner.chars (exactly "plus://") s with
    | none => exact andThen_none hy
    | some y =>
        have hone := (hends _).mp (h _ (Regex.mem_chars.mpr ⟨y, hy, rfl⟩))
        change Scanner.one isAlnum y.rest = none at hone
        simp [plusScan, Scanner.andThen, hy, hone]
  · intro h z hz
    obtain ⟨y, hy, rfl⟩ := Regex.mem_chars.mp hz
    have hy : Scanner.chars (exactly "plus://") s = some y := hy
    refine (hends _).mpr ?_
    change Scanner.one isAlnum y.rest = none
    simpa [plusScan, Scanner.andThen, hy] using h

/-! ### Authorization headers -/

/-- Reads a header up to its scheme. -/
def headerScan : Scanner Nat :=
  (Scanner.chars (anyCase "authorization")).andThen
    ((Scanner.span isSpace).andThen ((Scanner.one isSep).andThen (Scanner.span isSpace)))

/-- Reads a scheme. -/
def schemeScan : Scanner Nat :=
  (Scanner.chars (anyCase "bearer")).andThen (Scanner.plus isSpace)

/-- Reads a header up to its credential.  The scheme belongs to it when a credential comes behind
the scheme, and is the credential otherwise. -/
def leadScan : Scanner Nat :=
  headerScan.andThen (schemeScan.optAhead isCredential)

/-- Reads a header with its credential. -/
def bearerScan : Scanner Nat :=
  (leadScan.capture 1).andThen (Scanner.plus isCredential)

theorem header_commits : headerRegex.Commits headerScan isSpace := by
  have hsep : ((Scanner.one isSep).andThen (Scanner.span isSpace)).Stuck isSpace isSpace :=
    (Scanner.Stuck.one (fun _ => not_space_of_sep) (fun _ => false)).andThen
      (Scanner.Stuck.never _ _)
  have hblank : (Regex.many isSpace none).Commits (Scanner.span isSpace) isSpace :=
    Regex.Commits.span fun _ h => h
  exact Regex.Commits.seq_free (Regex.Commits.chars _)
    (Regex.Commits.seq hblank (Regex.Commits.seq_free Regex.Commits.one hblank) hsep)

theorem scheme_commits : schemeRegex.Commits schemeScan isSpace :=
  Regex.Commits.seq_free (Regex.Commits.chars _) (Regex.Commits.plus fun _ h => h)

theorem not_credential_of_space {c : Nat} (h : isSpace c = true) : isCredential c = false := by
  simp [isCredential, isBreak, h]

theorem schemeScan_space {c : Nat} (h : isSpace c = true) (s : PyStr) :
    schemeScan (c :: s) = none := by
  have hfirst : (foldCase c == 98) = false := foldCase_ne (by decide) (Or.inl h) (by decide)
  simp [schemeScan, Scanner.chars, anyCase, py, Scanner.andThen, Scanner.one, hfirst]

/-- **What is found of a header** is what the scanner reads. -/
theorem bearer_readBy : bearer.ReadBy bearerScan :=
  header_commits.readBy_group_opt scheme_commits (fun _ => not_credential_of_space)
    (fun _ s hc => schemeScan_space hc s) 1

theorem header_plain : headerScan.Plain :=
  (Scanner.Plain.chars _).andThen ((Scanner.Plain.span _).andThen
    ((Scanner.Plain.one _).andThen (Scanner.Plain.span _)))

theorem scheme_plain : schemeScan.Plain :=
  (Scanner.Plain.chars _).andThen (Scanner.Plain.plus _)

theorem lead_plain : leadScan.Plain := by
  refine header_plain.andThen fun s y h => ?_
  obtain rfl := Option.some.inj h
  cases hs : schemeScan s with
  | none => rfl
  | some z =>
      by_cases hz : opens isCredential z.rest = true
      · simpa [Option.filter, hz] using scheme_plain s z hs
      · simp [Option.filter, hz]

/-- A header that is found, and what is written in its place. -/
theorem bearer_found {before : Option Nat} {s : PyStr} {m : Point Nat} :
    bearer.first before s = some m ↔ ∃ l, leadScan s = some l ∧
      opens isCredential l.rest = true ∧
      m = ⟨lastOf before (l.word ++ l.rest.takeWhile isCredential),
        l.rest.dropWhile isCredential, [(1, l.word)]⟩ := by
  rw [bearer_readBy, Option.map_eq_some_iff]
  constructor
  · rintro ⟨y, hy, rfl⟩
    obtain ⟨x, hx, z, hz, rfl⟩ := Scanner.andThen_eq_some.mp hy
    obtain ⟨l, hl, rfl⟩ := (Scanner.capture_eq_some lead_plain).mp hx
    obtain ⟨hopen, rfl⟩ := Scanner.plus_eq_some.mp hz
    exact ⟨l, hl, hopen, rfl⟩
  · rintro ⟨l, hl, hopen, rfl⟩
    refine ⟨_, Scanner.andThen_eq_some.mpr ⟨_, (Scanner.capture_eq_some lead_plain).mpr
      ⟨l, hl, rfl⟩, _, Scanner.plus_eq_some.mpr ⟨hopen, rfl⟩, rfl⟩, rfl⟩

/-! ### Token fields -/

/-- Reads an optional quote. -/
def quoteScan : Scanner Nat :=
  (Scanner.one fun c => c == 34).orElse ((Scanner.one fun c => c == 39).orElse Scanner.empty)

/-- Reads two words with a dash between them, or without. -/
def dashedScan (first second : String) : Scanner Nat :=
  (Scanner.chars (anyCase first)).andThen
    ((Scanner.opt (Scanner.one isDash)).andThen (Scanner.chars (anyCase second)))

/-- Reads the name of a token field. -/
def nameScan : Scanner Nat :=
  (dashedScan "access" "token").orElse ((dashedScan "api" "key").orElse
    ((Scanner.chars (anyCase "secret")).orElse (dashedScan "signed" "url")))

/-- Reads a separator with white space around it. -/
def sepScan : Scanner Nat :=
  (Scanner.span isSpace).andThen ((Scanner.one isSep).andThen (Scanner.span isSpace))

/-- Reads a token field up to its value. -/
def fieldScan : Scanner Nat :=
  (quoteScan.capture 1).andThen ((nameScan.capture 2).andThen ((quoteScan.capture 3).andThen
    ((sepScan.capture 4).andThen (quoteScan.capture 5))))

/-- Reads a token field with its value. -/
def tokenScan : Scanner Nat :=
  fieldScan.andThen (Scanner.plus isTokenChar)

theorem quoteScan_eq (s : PyStr) :
    quoteScan s = if opens isQuote s then Scanner.one isQuote s else Scanner.empty s := by
  cases s with
  | nil => rfl
  | cons c s =>
      by_cases hd : c = 34
      · subst hd
        rfl
      · by_cases hq : c = 39
        · subst hq
          rfl
        · simp [quoteScan, Scanner.orElse, Scanner.one, hd, hq, isQuote]

/-- A quote in front of what does not begin with a quote. -/
theorem quote_commits {blocked : Nat → Bool} (h : ∀ c, isQuote c = true → blocked c = true) :
    quoteRegex.Commits quoteScan blocked := by
  have hquote : ∀ q : Nat, isQuote q = true → ∀ s y, Scanner.one (fun c => c == q) s = some y →
      ∃ c t, s = c :: t ∧ blocked c = true := by
    intro q hq s y hy
    cases s with
    | nil => contradiction
    | cons c s =>
        by_cases hc : c = q
        · exact ⟨c, s, rfl, h c (hc ▸ hq)⟩
        · simp [Scanner.one, hc] at hy
  refine Regex.Commits.alt Regex.Commits.one
    (Regex.Commits.alt Regex.Commits.one Regex.Commits.empty ?_) ?_
  · intro s y hy z hz
    obtain ⟨c, t, rfl, hc⟩ := hquote 39 rfl s y hy
    exact ⟨c, t, by rw [← Option.some.inj hz], hc⟩
  · intro s y hy z hz
    obtain ⟨c, t, rfl, hc⟩ := hquote 34 rfl s y hy
    have hc34 : c = 34 := by
      by_contra hne
      simp [Scanner.one, hne] at hy
    subst hc34
    obtain rfl := Option.some.inj hz
    exact ⟨34, t, rfl, hc⟩

theorem dashed_commits (first second : String) {l : Nat → Bool} {rest : List (Nat → Bool)}
    (hsecond : anyCase second = l :: rest) (hdash : ∀ c, isDash c = true → l c = false)
    {blocked : Nat → Bool} :
    (dashed first second).Commits (dashedScan first second) blocked := by
  have hopt : (Regex.opt (Regex.one isDash)).Commits (Scanner.opt (Scanner.one isDash)) isDash := by
    refine Regex.Commits.alt Regex.Commits.one Regex.Commits.empty fun s y hy z hz => ?_
    cases s with
    | nil => contradiction
    | cons c s =>
        by_cases hc : isDash c = true
        · exact ⟨c, s, by rw [← Option.some.inj hz], hc⟩
        · simp [Scanner.one, hc] at hy
  refine Regex.Commits.seq_free (Regex.Commits.chars _)
    (Regex.Commits.seq hopt (Regex.Commits.chars _) ?_)
  rw [hsecond]
  exact stuck_chars hdash

/-- Two words differ at a place that both have. -/
def clash : PyStr → PyStr → Bool
  | l :: ls, l' :: ls' => l != l' || clash ls ls'
  | _, _ => false

/-- Words that differ at a place exclude each other. -/
theorem anyCase_disjoint {first second : String} (h : clash (py first) (py second) = true)
    {s : PyStr} {y : Reading Nat} (hy : Scanner.chars (anyCase first) s = some y) :
    Scanner.chars (anyCase second) s = none := by
  unfold anyCase at hy ⊢
  revert h hy
  generalize py first = w
  generalize py second = w'
  intro h hy
  induction w generalizing w' s y with
  | nil => cases w' <;> contradiction
  | cons l w ih =>
      cases w' with
      | nil => contradiction
      | cons l' w' =>
          obtain ⟨x, hx, z, hz, -⟩ := Scanner.andThen_eq_some.mp hy
          cases s with
          | nil => contradiction
          | cons c s =>
              by_cases hc : foldCase c = l
              · simp only [Scanner.one, hc, beq_self_eq_true, if_true, Option.some.injEq] at hx
                subst hx
                by_cases hl : l = l'
                · simp only [clash, hl, bne_self_eq_false, Bool.false_or] at h
                  have hnone := ih _ h hz
                  change (Scanner.andThen _ _) (c :: s) = none
                  simp only [Scanner.andThen, Scanner.one]
                  split
                  · change ((Scanner.chars _) s).map _ = none
                    rw [hnone]
                    rfl
                  · rfl
                · simp [Scanner.chars, Scanner.andThen, Scanner.one, hc, hl]
              · simp [Scanner.one, hc] at hx

theorem dashedScan_first {first second : String} {s : PyStr} {y : Reading Nat}
    (h : dashedScan first second s = some y) : ∃ x, Scanner.chars (anyCase first) s = some x := by
  obtain ⟨x, hx, -⟩ := Scanner.andThen_eq_some.mp h
  exact ⟨x, hx⟩

theorem signed_refused {s : PyStr} {y : Reading Nat}
    (h : Scanner.chars (anyCase "secret") s = some y) : dashedScan "signed" "url" s = none :=
  andThen_none (anyCase_disjoint (by decide) h)

theorem secret_refused {s : PyStr} {y : Reading Nat} (h : dashedScan "api" "key" s = some y) :
    ((Scanner.chars (anyCase "secret")).orElse (dashedScan "signed" "url")) s = none := by
  obtain ⟨x, hx⟩ := dashedScan_first h
  have hsecret : Scanner.chars (anyCase "secret") s = none := anyCase_disjoint (by decide) hx
  have hsigned : dashedScan "signed" "url" s = none :=
    andThen_none (anyCase_disjoint (by decide) hx)
  simp [Scanner.orElse, hsecret, hsigned]

theorem api_refused {s : PyStr} {y : Reading Nat} (h : dashedScan "access" "token" s = some y) :
    ((dashedScan "api" "key").orElse ((Scanner.chars (anyCase "secret")).orElse
      (dashedScan "signed" "url"))) s = none := by
  obtain ⟨x, hx⟩ := dashedScan_first h
  have hapi : dashedScan "api" "key" s = none :=
    andThen_none (anyCase_disjoint (by decide) hx)
  have hsecret : Scanner.chars (anyCase "secret") s = none := anyCase_disjoint (by decide) hx
  have hsigned : dashedScan "signed" "url" s = none :=
    andThen_none (anyCase_disjoint (by decide) hx)
  simp [Scanner.orElse, hapi, hsecret, hsigned]

theorem not_letter_of_dash {l c : Nat} (hl : 97 ≤ l) (h : isDash c = true) :
    (foldCase c == l) = false := by
  simp only [isDash, Bool.or_eq_true, beq_iff_eq] at h
  rcases h with rfl | rfl <;> simp [foldCase] <;> omega

theorem name_commits {blocked : Nat → Bool} : fieldName.Commits nameScan blocked := by
  refine Regex.Commits.alt (dashed_commits _ _ rfl fun _ => not_letter_of_dash (by decide))
    (Regex.Commits.alt (dashed_commits _ _ rfl fun _ => not_letter_of_dash (by decide))
      (Regex.Commits.alt (Regex.Commits.chars _)
        (dashed_commits _ _ rfl fun _ => not_letter_of_dash (by decide)) ?_) ?_) ?_
  · intro s y hy z hz
    rw [signed_refused hy] at hz
    contradiction
  · intro s y hy z hz
    rw [secret_refused hy] at hz
    contradiction
  · intro s y hy z hz
    rw [api_refused hy] at hz
    contradiction

theorem sep_commits : (Regex.seq (.many isSpace none) (.seq (.one isSep)
    (.many isSpace none))).Commits sepScan isSpace := by
  have hsep : ((Scanner.one isSep).andThen (Scanner.span isSpace)).Stuck isSpace isSpace :=
    (Scanner.Stuck.one (fun _ => not_space_of_sep) (fun _ => false)).andThen
      (Scanner.Stuck.never _ _)
  have hblank : (Regex.many isSpace none).Commits (Scanner.span isSpace) isSpace :=
    Regex.Commits.span fun _ h => h
  exact Regex.Commits.seq hblank (Regex.Commits.seq_free Regex.Commits.one hblank) hsep

/-- Whether a token field's value ends at a character. -/
def endsToken (c : Nat) : Bool :=
  !isTokenChar c

theorem not_letter_of_quote {l c : Nat} (hl : 97 ≤ l ∧ l ≤ 122) (h : isQuote c = true) :
    (foldCase c == l) = false :=
  foldCase_ne hl.1 (Or.inr h) hl.2

theorem name_stuck : nameScan.Stuck isQuote fun _ => false := by
  have hletter : ∀ {l : Nat}, 97 ≤ l ∧ l ≤ 122 → ∀ c, isQuote c = true →
      (foldCase c == l) = false :=
    fun hl _ h => not_letter_of_quote hl h
  exact Scanner.Stuck.orElse ((stuck_chars (hletter (by decide))).andThen
      (Scanner.Stuck.never _ _))
    (Scanner.Stuck.orElse ((stuck_chars (hletter (by decide))).andThen
        (Scanner.Stuck.never _ _))
      (Scanner.Stuck.orElse (stuck_chars (hletter (by decide)))
        ((stuck_chars (hletter (by decide))).andThen (Scanner.Stuck.never _ _))))

theorem sep_stuck : sepScan.Stuck isQuote fun _ => false :=
  (Scanner.Stuck.span (r := isQuote) fun _ h => ⟨not_space_of_quote h, h⟩).andThen
    ((Scanner.Stuck.one (fun _ => not_sep_of_quote) _).andThen (Scanner.Stuck.never _ _))

theorem quote_stuck : quoteScan.Stuck isSpace endsToken := by
  intro c s hc y hy
  have hquote : isQuote c = false := by
    cases hq : isQuote c with
    | false => rfl
    | true => rw [not_space_of_quote hq] at hc; contradiction
  rw [quoteScan_eq, opens_cons, hquote, if_neg Bool.false_ne_true] at hy
  obtain rfl := Option.some.inj hy
  exact ⟨c, s, rfl, by simp [endsToken, isTokenChar, isBreak, hc]⟩

theorem field_commits : fieldRegex.Commits fieldScan endsToken := by
  have hlast : quoteRegex.Commits quoteScan endsToken :=
    quote_commits fun c h => by simp [endsToken, isTokenChar, isBreak, h]
  have hquote : quoteRegex.Commits quoteScan isQuote := quote_commits fun _ h => h
  refine Regex.Commits.seq (hquote.group 1) (Regex.Commits.seq_free (name_commits.group 2)
    (Regex.Commits.seq (hquote.group 3) (Regex.Commits.seq (sep_commits.group 4)
      (hlast.group 5) (quote_stuck.capture 5)) ?_)) ?_
  · exact (sep_stuck.capture 4).andThen (Scanner.Stuck.never _ _)
  · exact (name_stuck.capture 2).andThen (Scanner.Stuck.never _ _)

/-- **What is found of a token field** is what the scanner reads. -/
theorem tokenField_readBy : tokenField.ReadBy tokenScan :=
  field_commits.readBy_plus fun c h => by simpa [endsToken] using h

theorem quote_splits : quoteScan.Splits :=
  (Scanner.Splits.one _).orElse ((Scanner.Splits.one _).orElse Scanner.Splits.empty)

theorem quote_plain : quoteScan.Plain :=
  (Scanner.Plain.one _).orElse ((Scanner.Plain.one _).orElse Scanner.Plain.empty)

theorem dashed_plain (first second : String) : (dashedScan first second).Plain :=
  (Scanner.Plain.chars _).andThen
    (((Scanner.Plain.one _).orElse Scanner.Plain.empty).andThen (Scanner.Plain.chars _))

theorem name_plain : nameScan.Plain :=
  (dashed_plain _ _).orElse ((dashed_plain _ _).orElse
    ((Scanner.Plain.chars _).orElse (dashed_plain _ _)))

theorem sep_plain : sepScan.Plain :=
  (Scanner.Plain.span _).andThen ((Scanner.Plain.one _).andThen (Scanner.Plain.span _))

/-- The groups of a token field make up all that is read before its value. -/
theorem field_groups {s : PyStr} {l : Reading Nat} (h : fieldScan s = some l) :
    ∃ q₁ name q₂ sep q₃ : Reading Nat, quoteScan s = some q₁ ∧ nameScan q₁.rest = some name ∧
      quoteScan name.rest = some q₂ ∧ sepScan q₂.rest = some sep ∧
      quoteScan sep.rest = some q₃ ∧
      l = ⟨q₁.word ++ (name.word ++ (q₂.word ++ (sep.word ++ q₃.word))),
        [(5, q₃.word), (4, sep.word), (3, q₂.word), (2, name.word), (1, q₁.word)], q₃.rest⟩ := by
  obtain ⟨x₁, h₁, y₁, g₁, rfl⟩ := Scanner.andThen_eq_some.mp h
  obtain ⟨q₁, hq₁, rfl⟩ := (Scanner.capture_eq_some quote_plain).mp h₁
  obtain ⟨x₂, h₂, y₂, g₂, rfl⟩ := Scanner.andThen_eq_some.mp g₁
  obtain ⟨name, hname, rfl⟩ := (Scanner.capture_eq_some name_plain).mp h₂
  obtain ⟨x₃, h₃, y₃, g₃, rfl⟩ := Scanner.andThen_eq_some.mp g₂
  obtain ⟨q₂, hq₂, rfl⟩ := (Scanner.capture_eq_some quote_plain).mp h₃
  obtain ⟨x₄, h₄, y₄, g₄, rfl⟩ := Scanner.andThen_eq_some.mp g₃
  obtain ⟨sep, hsep, rfl⟩ := (Scanner.capture_eq_some sep_plain).mp h₄
  obtain ⟨q₃, hq₃, rfl⟩ := (Scanner.capture_eq_some quote_plain).mp g₄
  exact ⟨q₁, name, q₂, sep, q₃, hq₁, hname, hq₂, hsep, hq₃, rfl⟩

/-- A token field that is found. -/
theorem tokenField_found {before : Option Nat} {s : PyStr} {m : Point Nat} :
    tokenField.first before s = some m ↔ ∃ l, fieldScan s = some l ∧
      opens isTokenChar l.rest = true ∧
      m = ⟨lastOf before (l.word ++ l.rest.takeWhile isTokenChar),
        l.rest.dropWhile isTokenChar, l.groups⟩ := by
  rw [tokenField_readBy, Option.map_eq_some_iff]
  constructor
  · rintro ⟨y, hy, rfl⟩
    obtain ⟨l, hl, z, hz, rfl⟩ := Scanner.andThen_eq_some.mp hy
    obtain ⟨hopen, rfl⟩ := Scanner.plus_eq_some.mp hz
    exact ⟨l, hl, hopen, by simp [Point.past]⟩
  · rintro ⟨l, hl, hopen, rfl⟩
    exact ⟨_, Scanner.andThen_eq_some.mpr ⟨l, hl, _, Scanner.plus_eq_some.mpr ⟨hopen, rfl⟩, rfl⟩,
      by simp [Point.past]⟩

/-- What is written for a token field. -/
theorem keeping_field {before : Option Nat} {s rest : PyStr} {l : Reading Nat}
    (h : fieldScan s = some l) :
    keeping [1, 2, 3, 4, 5] redacted ⟨before, rest, l.groups⟩ = l.word ++ redacted := by
  obtain ⟨q₁, name, q₂, sep, q₃, -, -, -, -, -, rfl⟩ := field_groups h
  simp [keeping, Point.group, List.lookup_cons, List.append_assoc]

/-! ### Queries -/

/-- Reads a URL up to its query. -/
def urlScan (literal : String → List (Nat → Bool)) : Scanner Nat :=
  (Scanner.capture 1 ((Scanner.chars (literal "http")).andThen
    ((Scanner.opt (Scanner.chars (literal "s"))).andThen
      ((Scanner.chars (literal "://")).andThen (Scanner.plus isUrlChar))))).andThen
    (Scanner.one fun c => c == 63)

/-- Reads a URL with its query. -/
def queryScan : Scanner Nat :=
  (urlScan exactly).andThen (Scanner.plus isQueryChar)

theorem not_urlChar_question {c : Nat} (h : isUrlChar c = true) : (c == 63) = false := by
  simp only [isUrlChar, Bool.and_eq_true, bne_iff_ne] at h
  simpa using h.2

/-- A URL is read without going back, when its optional letter is not a colon. -/
theorem url_commits {literal : String → List (Nat → Bool)} {s colon : Nat → Bool}
    {slashes : List (Nat → Bool)} (hs : literal "s" = [s])
    (hcolon : literal "://" = colon :: slashes)
    (hdisjoint : ∀ c, s c = true → colon c = false) {blocked : Nat → Bool} :
    (urlRegex literal).Commits (urlScan literal) blocked := by
  have hopt : (Regex.opt (Regex.chars (literal "s"))).Commits
      (Scanner.opt (Scanner.chars (literal "s"))) s := by
    refine Regex.Commits.alt (Regex.Commits.chars _) Regex.Commits.empty fun t y hy z hz => ?_
    rw [hs] at hy
    obtain ⟨x, hx, -⟩ := Scanner.andThen_eq_some.mp hy
    cases t with
    | nil => contradiction
    | cons c t =>
        by_cases hc : s c = true
        · exact ⟨c, t, by rw [← Option.some.inj hz], hc⟩
        · simp [Scanner.one, hc] at hx
  have hstuck : ((Scanner.chars (literal "://")).andThen (Scanner.plus isUrlChar)).Stuck s
      isUrlChar := by
    rw [hcolon]
    exact (stuck_chars hdisjoint).andThen (Scanner.Stuck.never _ isUrlChar)
  refine Regex.Commits.seq (Regex.Commits.group (Regex.Commits.seq_free (Regex.Commits.chars _)
    (Regex.Commits.seq hopt (Regex.Commits.seq_free (Regex.Commits.chars _)
      (Regex.Commits.plus fun _ h => h)) hstuck)) 1) Regex.Commits.one
    (Scanner.Stuck.one (fun _ => not_urlChar_question) _)

/-- **What is found of a query** is what the scanner reads. -/
theorem anyQs_readBy : anyQs.ReadBy queryScan := by
  have hs : exactly "s" = [fun c => c == 115] := rfl
  have hcolon : exactly "://" = [fun c => c == 58, fun c => c == 47, fun c => c == 47] := rfl
  have hurl : (urlRegex exactly).Commits (urlScan exactly) fun _ => false :=
    url_commits hs hcolon fun c hc => by
      obtain rfl : c = 115 := by simpa using hc
      rfl
  exact hurl.readBy_plus fun c h => by contradiction

theorem url_plain (literal : String → List (Nat → Bool)) :
    ((Scanner.chars (literal "http")).andThen ((Scanner.opt (Scanner.chars (literal "s"))).andThen
      ((Scanner.chars (literal "://")).andThen (Scanner.plus isUrlChar)))).Plain :=
  (Scanner.Plain.chars _).andThen (((Scanner.Plain.chars _).orElse Scanner.Plain.empty).andThen
    ((Scanner.Plain.chars _).andThen (Scanner.Plain.plus _)))

/-- A URL is captured without its question mark. -/
theorem url_groups {literal : String → List (Nat → Bool)} {s : PyStr} {l : Reading Nat}
    (h : urlScan literal s = some l) : ∃ u, l.word = u ++ [63] ∧ l.groups = [(1, u)] := by
  obtain ⟨x, hx, y, hy, rfl⟩ := Scanner.andThen_eq_some.mp h
  obtain ⟨u, -, rfl⟩ := (Scanner.capture_eq_some (url_plain literal)).mp hx
  obtain ⟨c, t, -, hc, rfl⟩ := Scanner.one_eq_some.mp hy
  exact ⟨u.word, by rw [eq_of_beq hc], rfl⟩

/-- What is written for a URL with a query. -/
theorem keeping_url {literal : String → List (Nat → Bool)} {before : Option Nat}
    {s rest : PyStr} {l : Reading Nat} (h : urlScan literal s = some l)
    (more : List (Nat × PyStr)) (hmore : more.lookup 1 = none) :
    keeping [1] (63 :: redacted) ⟨before, rest, more ++ l.groups⟩ = l.word ++ redacted := by
  obtain ⟨u, hword, hgroups⟩ := url_groups h
  rw [hword, hgroups]
  simp [keeping, Point.group, List.lookup_append, hmore]

/-- A query that is found. -/
theorem anyQs_found {before : Option Nat} {s : PyStr} {m : Point Nat} :
    anyQs.first before s = some m ↔ ∃ l, urlScan exactly s = some l ∧
      opens isQueryChar l.rest = true ∧
      m = ⟨lastOf before (l.word ++ l.rest.takeWhile isQueryChar),
        l.rest.dropWhile isQueryChar, l.groups⟩ := by
  rw [anyQs_readBy, Option.map_eq_some_iff]
  constructor
  · rintro ⟨y, hy, rfl⟩
    obtain ⟨l, hl, z, hz, rfl⟩ := Scanner.andThen_eq_some.mp hy
    obtain ⟨hopen, rfl⟩ := Scanner.plus_eq_some.mp hz
    exact ⟨l, hl, hopen, by simp [Point.past]⟩
  · rintro ⟨l, hl, hopen, rfl⟩
    exact ⟨_, Scanner.andThen_eq_some.mpr ⟨l, hl, _, Scanner.plus_eq_some.mpr ⟨hopen, rfl⟩, rfl⟩,
      by simp [Point.past]⟩

/-! ### Signed queries -/

/-- The names whose values sign a URL. -/
def signatureWords : List String :=
  ["sig", "signature", "x-amz-signature", "token", "expires", "se"]

/-- What follows a question mark is a signed query: one of the names is in it, with an equals
sign. -/
def Signed (q : PyStr) : Prop :=
  ∃ v t, q = v ++ t ∧ (∀ c ∈ v, isQueryChar c = true) ∧ ∃ w ∈ signatureWords, ∃ y rest,
    Scanner.chars (anyCase w) t = some y ∧ y.rest = 61 :: rest

theorem mem_signatureName {x y : Point Nat} : y ∈ signatureName.ends x ↔
    ∃ w ∈ signatureWords, ∃ z, Scanner.chars (anyCase w) x.rest = some z ∧ y = x.past z := by
  simp only [signatureName, Regex.ends, List.mem_append, Regex.mem_chars, signatureWords,
    List.mem_cons, List.not_mem_nil, or_false, exists_eq_or_imp, exists_eq_left]

/-- What is read of a literal, in lower case. -/
theorem chars_fold (w : String) :
    (Scanner.chars (anyCase w)).Within fun c => foldCase c ∈ py w := by
  refine Scanner.Within.chars fun q hq c hc => ?_
  obtain ⟨l, hl, rfl⟩ := List.mem_map.mp hq
  rwa [eq_of_beq hc]

/-- The letters of a literal belong to queries. -/
theorem chars_query {w : String} (hw : ∀ l ∈ py w, l = 45 ∨ 97 ≤ l ∧ l ≤ 122) {s : PyStr}
    {y : Reading Nat} (h : Scanner.chars (anyCase w) s = some y) :
    ∀ c ∈ y.word, isQueryChar c = true := by
  intro c hc
  have hletter := hw _ (chars_fold w s y h c hc)
  by_contra hend
  obtain ⟨hfold, h45, hnot⟩ := foldCase_of_end (by simpa using hend)
  omega

theorem signatureWords_letters : ∀ w ∈ signatureWords, ∀ l ∈ py w, l = 45 ∨ 97 ≤ l ∧ l ≤ 122 := by
  decide

/-- The first of many lists put together is the first of one of them. -/
theorem head?_of_flatMap {α β : Type} {l : List α} {f : α → List β} {m : β}
    (h : (l.flatMap f).head? = some m) : ∃ a ∈ l, (f a).head? = some m := by
  rw [List.head?_flatMap] at h
  exact List.exists_of_findSome?_eq_some h

/-- Where a signed query ends. -/
theorem signed_head {x m : Point Nat} (h : (signedRegex.ends x).head? = some m) :
    Signed x.rest ∧ m.rest = x.rest.dropWhile isQueryChar ∧
      m.before = lastOf x.before (x.rest.takeWhile isQueryChar) ∧
      ∃ g, m.groups = (2, g) :: x.groups := by
  obtain ⟨z, hz, h⟩ := head?_of_flatMap h
  obtain ⟨y, hy, h⟩ := head?_of_flatMap h
  obtain ⟨y', hy', h⟩ := head?_of_flatMap h
  obtain ⟨v, t, hrest, hv, rfl⟩ := Regex.mem_many.mp hz
  rw [Regex.ends, List.mem_map] at hy
  obtain ⟨n, hn, rfl⟩ := hy
  obtain ⟨w, hw, r, hr, rfl⟩ := mem_signatureName.mp hn
  have hsplit := Scanner.Splits.chars (anyCase w) _ _ hr
  cases hafter : r.rest with
  | nil => simp [Regex.ends, Point.past, hafter] at hy'
  | cons c rest =>
      by_cases hc : c = 61
      · subst hc
        simp only [Regex.ends, Point.past, hafter, beq_self_eq_true, if_true,
          List.mem_singleton] at hy'
        subst hy'
        rw [Regex.head?_many, Option.some.injEq] at h
        have hall : ∀ c ∈ v ++ (r.word ++ [61]), isQueryChar c = true := by
          intro c hc
          rcases List.mem_append.mp hc with hc | hc
          · exact hv c hc
          · rcases List.mem_append.mp hc with hc | hc
            · exact chars_query (signatureWords_letters w hw) hr c hc
            · rw [List.mem_singleton.mp hc]
              decide
        have hword : x.rest = v ++ (r.word ++ [61]) ++ rest := by
          have hsplit : t = r.word ++ r.rest := hsplit
          rw [hrest, hsplit, hafter]
          simp
        refine ⟨⟨v, t, hrest, hv, w, hw, r, rest, hr, hafter⟩, ?_, ?_, ?_⟩
        · rw [← h, hword, List.dropWhile_append_of_pos hall]
          rfl
        · rw [← h, hword, List.takeWhile_append_of_pos hall]
          simp [Point.past]
        · rw [← h]
          refine ⟨t.take (t.length - (rest.length + 1)), ?_⟩
          simp [Point.past, Scanner.Plain.chars _ _ _ hr]
      · simp [Regex.ends, Point.past, hafter, hc] at hy'

theorem signed_none {x : Point Nat} (h : (signedRegex.ends x).head? = none) :
    ¬ Signed x.rest := by
  rintro ⟨v, t, hrest, hv, w, hw, r, rest, hr, hafter⟩
  rw [List.head?_eq_none_iff] at h
  have hz : x.past ⟨v, [], t⟩ ∈ (Regex.many isQueryChar none).ends x :=
    Regex.mem_many.mpr ⟨v, t, hrest, hv, rfl⟩
  have hn : (x.past ⟨v, [], t⟩).past r ∈ signatureName.ends (x.past ⟨v, [], t⟩) :=
    mem_signatureName.mpr ⟨w, hw, r, hr, rfl⟩
  have hgo : ∀ y : Point Nat, y.rest = 61 :: rest →
      (Regex.seq (.one fun c => c == 61) (.many isQueryChar none)).ends y ≠ [] := by
    intro y hy hnil
    have hmany := Regex.head?_many isQueryChar { y with before := some 61, rest := rest }
    rw [Regex.ends, Regex.ends, hy] at hnil
    simp only [beq_self_eq_true, if_true, List.flatMap_singleton] at hnil
    rw [hnil] at hmany
    contradiction
  exact hgo _ hafter (List.flatMap_eq_nil_iff.mp (List.flatMap_eq_nil_iff.mp h _ hz) _
    (List.mem_map_of_mem hn))

theorem signedUrl_commits : (urlRegex anyCase).Commits (urlScan anyCase) fun _ => false := by
  have hs : anyCase "s" = [fun c => foldCase c == 115] := rfl
  have hcolon : anyCase "://" =
      [fun c => foldCase c == 58, fun c => foldCase c == 47, fun c => foldCase c == 47] := rfl
  exact url_commits hs hcolon fun c hc => by
    have hc : foldCase c = 115 := by simpa using hc
    simp [hc]

theorem signedQs_first (before : Option Nat) (s : PyStr) : signedQs.first before s =
    ((urlScan anyCase s).map (Point.past ⟨before, s, []⟩)).bind fun y =>
      (signedRegex.ends y).head? :=
  signedUrl_commits.head? (fun _ _ _ _ h => by contradiction) _

/-- A signed query that is found, and what is left behind it. -/
theorem signedQs_found {before : Option Nat} {s : PyStr} {m : Point Nat}
    (h : signedQs.first before s = some m) : ∃ l, urlScan anyCase s = some l ∧ Signed l.rest ∧
      m.rest = l.rest.dropWhile isQueryChar ∧
      m.before = lastOf before (l.word ++ l.rest.takeWhile isQueryChar) ∧
      keeping [1] (63 :: redacted) m = l.word ++ redacted := by
  rw [signedQs_first, Option.bind_eq_some_iff] at h
  obtain ⟨y, hy, h⟩ := h
  obtain ⟨l, hl, rfl⟩ := Option.map_eq_some_iff.mp hy
  obtain ⟨hsigned, hrest, hbefore, g, hgroups⟩ := signed_head h
  refine ⟨l, hl, hsigned, hrest, by rw [hbefore, lastOf_append]; rfl, ?_⟩
  have hm : m = ⟨m.before, m.rest, [(2, g)] ++ l.groups⟩ := by
    rw [← List.append_nil l.groups, List.singleton_append]
    exact congrArg (Point.mk m.before m.rest) hgroups
  rw [hm]
  exact keeping_url hl [(2, g)] rfl

theorem signedQs_missed {before : Option Nat} {s : PyStr} (h : signedQs.first before s = none)
    {l : Reading Nat} (hl : urlScan anyCase s = some l) : ¬ Signed l.rest := by
  rw [signedQs_first, hl, Option.map_some, Option.bind_some] at h
  exact signed_none h

/-! ### Keys with their secrets -/

/-- A key with its secret. -/
def IsKeypair (r : PyStr) : Prop :=
  ∃ a c, r = a ++ 58 :: c ∧ (∀ x ∈ a, isKeyChar x = true) ∧ 8 ≤ a.length ∧
    (∀ x ∈ c, isAlnum x = true) ∧ 32 ≤ c.length

theorem word_of_alnum {wide : Nat → Bool} {c : Nat} (h : isAlnum c = true) :
    isWord wide c = true := by
  have hsmall : c < 128 := by
    simp only [isAlnum, decide_eq_true_eq] at h
    omega
  simp [isWord, hsmall, h]

/-- Behind the last character of a key there is a word. -/
theorem word_behind {wide : Nat → Bool} {before : Option Nat} {a c : PyStr}
    (hc : ∀ x ∈ c, isAlnum x = true) (hlen : 32 ≤ c.length) :
    (lastOf before (a ++ 58 :: c)).any (isWord wide) = true := by
  have hne : c ≠ [] := List.ne_nil_of_length_pos (by omega)
  obtain ⟨d, hd, hlast⟩ := lastOf_mem hne (some 58)
  rw [lastOf_append, lastOf_cons, hlast]
  exact word_of_alnum (hc d hd)

/-- What is found of a key with its secret. -/
theorem keypair_found {wide : Nat → Bool} {before : Option Nat} {s : PyStr} {m : Point Nat}
    (h : (keypair wide).first before s = some m) : ∃ r, IsKeypair r ∧ s = r ++ m.rest ∧
      before.any (isWord wide) ≠ opens (isWord wide) s ∧ opens (isWord wide) m.rest = false := by
  obtain ⟨x₁, h₁, h⟩ := List.mem_flatMap.mp (List.mem_of_mem_head? h)
  obtain ⟨x₂, h₂, h⟩ := List.mem_flatMap.mp h
  obtain ⟨x₃, h₃, h⟩ := List.mem_flatMap.mp h
  obtain ⟨x₄, h₄, h⟩ := List.mem_flatMap.mp h
  obtain ⟨x₅, h₅, h⟩ := List.mem_flatMap.mp h
  obtain ⟨x₆, h₆, h⟩ := List.mem_flatMap.mp h
  obtain ⟨hbefore, rfl⟩ := Regex.mem_boundary.mp h₁
  obtain ⟨a, t₂, ht₂, ha, halen, rfl⟩ := Regex.mem_times.mp h₂
  obtain ⟨a', t₃, ht₃, ha', rfl⟩ := Regex.mem_many.mp h₃
  obtain ⟨colon, t₄, ht₄, hcolon, rfl⟩ := Regex.mem_one.mp h₄
  obtain ⟨c, t₅, ht₅, hc, hclen, rfl⟩ := Regex.mem_times.mp h₅
  obtain ⟨c', t₆, ht₆, hc', rfl⟩ := Regex.mem_many.mp h₆
  obtain ⟨hend, rfl⟩ := Regex.mem_boundary.mp h
  obtain rfl : colon = 58 := by simpa using hcolon
  simp only [Point.past] at ht₂ ht₃ ht₄ ht₅ ht₆ hend hbefore ⊢
  have hs : s = (a ++ a') ++ 58 :: (c ++ c') ++ t₆ := by
    rw [ht₂, ht₃, ht₄, ht₅, ht₆]
    simp
  have hall : ∀ {p : Nat → Bool} {v w : PyStr}, (∀ x ∈ v, p x = true) →
      (∀ x ∈ w, p x = true) → ∀ x ∈ v ++ w, p x = true := by
    intro p v w hv hw x hx
    rcases List.mem_append.mp hx with hx | hx
    · exact hv x hx
    · exact hw x hx
  have hpair : IsKeypair ((a ++ a') ++ 58 :: (c ++ c')) :=
    ⟨a ++ a', c ++ c', rfl, hall ha ha', by rw [List.length_append]; omega, hall hc hc',
      by rw [List.length_append]; omega⟩
  refine ⟨_, hpair, hs, hbefore, ?_⟩
  have hword : (lastOf before ((a ++ a') ++ 58 :: (c ++ c'))).any (isWord wide) = true :=
    word_behind (hall hc hc') (by rw [List.length_append]; omega)
  simp only [lastOf_append, lastOf_cons, lastOf_nil] at hword hend
  rw [hword] at hend
  cases hopen : opens (isWord wide) t₆ with
  | false => rfl
  | true =>
      rw [hopen] at hend
      exact absurd rfl hend

/-- A key with its secret between words is found. -/
theorem keypair_missed {wide : Nat → Bool} {before : Option Nat} {r t : PyStr}
    (hr : IsKeypair r) (hbefore : before.any (isWord wide) ≠ opens (isWord wide) (r ++ t))
    (ht : opens (isWord wide) t = false) : (keypair wide).first before (r ++ t) ≠ none := by
  obtain ⟨a, c, rfl, ha, halen, hc, hclen⟩ := hr
  intro hnone
  have htake : ∀ {p : Nat → Bool} {w : PyStr} (n : Nat), (∀ x ∈ w, p x = true) →
      (∀ x ∈ w.take n, p x = true) ∧ ∀ x ∈ w.drop n, p x = true :=
    fun n hw => ⟨fun x hx => hw x (List.mem_of_mem_take hx),
      fun x hx => hw x (List.mem_of_mem_drop hx)⟩
  rw [Pattern.first, List.head?_eq_none_iff] at hnone
  have h₁ := List.flatMap_eq_nil_iff.mp hnone _ (Regex.mem_boundary.mpr ⟨hbefore, rfl⟩)
  have h₂ := List.flatMap_eq_nil_iff.mp h₁ _ (Regex.mem_times.mpr
    ⟨a.take 8, a.drop 8 ++ 58 :: (c ++ t), by
      rw [← List.append_assoc, List.take_append_drop]
      simp, (htake 8 ha).1, by simp [halen], rfl⟩)
  have h₃ := List.flatMap_eq_nil_iff.mp h₂ _ (Regex.mem_many.mpr
    ⟨a.drop 8, 58 :: (c ++ t), rfl, (htake 8 ha).2, rfl⟩)
  have h₄ := List.flatMap_eq_nil_iff.mp h₃ _ (Regex.mem_one.mpr ⟨58, c ++ t, rfl, rfl, rfl⟩)
  have h₅ := List.flatMap_eq_nil_iff.mp h₄ _ (Regex.mem_times.mpr
    ⟨c.take 32, c.drop 32 ++ t, by
      rw [← List.append_assoc, List.take_append_drop]
      rfl, (htake 32 hc).1, by simp [hclen], rfl⟩)
  have h₆ := List.flatMap_eq_nil_iff.mp h₅ _ (Regex.mem_many.mpr
    ⟨c.drop 32, t, rfl, (htake 32 hc).2, rfl⟩)
  refine List.eq_nil_iff_forall_not_mem.mp h₆ _ (Regex.mem_boundary.mpr ⟨?_, rfl⟩)
  have hword : (lastOf before (a ++ 58 :: c)).any (isWord wide) = true := word_behind hc hclen
  have hlast : lastOf (lastOf (lastOf (lastOf (lastOf before (a.take 8)) (a.drop 8)) [58])
      (c.take 32)) (c.drop 32) = lastOf before (a ++ 58 :: c) := by
    rw [← lastOf_append before, List.take_append_drop, ← lastOf_append _ (c.take 32),
      List.take_append_drop, lastOf_append]
    rfl
  change (lastOf _ (c.drop 32)).any (isWord wide) ≠ opens (isWord wide) t
  intro heq
  rw [ht] at heq
  have hfalse := (congrArg (Option.any (isWord wide)) hlast).symm.trans heq
  rw [hword] at hfalse
  contradiction

end Redact
end FrigateXdna
