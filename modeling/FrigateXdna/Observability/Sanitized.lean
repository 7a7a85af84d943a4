import FrigateXdna.Observability.Redacted

/-!
# Sanitized text

What a pattern of the redaction matches in sanitized text is what redaction itself would write
there, at every place of the text.  So no credential, token, query or key is left that a pattern
knows, and sanitizing a text again changes nothing.

Every pass is followed through the passes behind it: where its pattern still reads something,
the pass had read it before, and the mark that it left is there.

Main results:

- Theorem {lit}`sanitizeText_clean`: every pattern is settled everywhere in sanitized text.
- Theorem {lit}`sanitizeText_idempotent`, {lit}`sanitizeObj_idempotent`: sanitizing twice.
-/

namespace FrigateXdna
namespace Redact

open Python Library

/-! ## How far the scanners reach -/

/-- A separator, or the character that marks begin with. -/
def isStop (c : Nat) : Bool :=
  isSep c || c == 60

theorem not_stop_of_space {c : Nat} (h : isSpace c = true) : isStop c = false := by
  have hne : c ≠ 60 := by
    rintro rfl
    exact absurd h (by decide)
  simp [isStop, not_space_of_sep h, hne]

theorem not_stop_of_quote {c : Nat} (h : isQuote c = true) : isStop c = false := by
  have hne : c ≠ 60 := by
    rintro rfl
    exact absurd h (by decide)
  simp [isStop, not_sep_of_quote h, hne]

/-- What a letter is not. -/
theorem letter_facts {c : Nat} (h : foldCase c = 45 ∨ 97 ≤ foldCase c ∧ foldCase c ≤ 122) :
    isStop c = false ∧ isSpace c = false ∧ isQuote c = false ∧ isCredential c = true ∧
      c ≠ 63 := by
  have hquery : isQueryChar c = true := by
    by_contra hend
    obtain ⟨hfold, h45, hnot⟩ := foldCase_of_end (by simpa using hend)
    omega
  have hsame : ∀ d, c = d → (d = 58 ∨ d = 60 ∨ d = 61 ∨ d = 63 ∨ d = 125) → False := by
    rintro d rfl hd
    rcases hd with rfl | rfl | rfl | rfl | rfl <;> revert h <;> decide
  have hstop : isStop c = false := by
    simp only [isStop, isSep, Bool.or_eq_false_iff, beq_eq_false_iff_ne]
    exact ⟨⟨fun hc => hsame _ hc (by decide), fun hc => hsame _ hc (by decide)⟩,
      fun hc => hsame _ hc (by decide)⟩
  simp only [isQueryChar, isBreak, Bool.not_eq_true', Bool.or_eq_false_iff] at hquery
  obtain ⟨⟨⟨hspace, hquote⟩, hcomma⟩, hsemi⟩ := hquery
  have hbrace : (c == 125) = false := by
    rw [beq_eq_false_iff_ne]
    exact fun hc => hsame _ hc (by decide)
  refine ⟨hstop, hspace, hquote, ?_, fun hc => hsame _ hc (by decide)⟩
  simp [isCredential, isBreak, hspace, hquote, hcomma, hsemi, hbrace]

/-- A word that ends with a separator and white space, in front of no white space. -/
def Separated (word rest : PyStr) : Prop :=
  ∃ pre c w, word = pre ++ c :: w ∧ (∀ x ∈ pre, isStop x = false) ∧ isSep c = true ∧
    (∀ x ∈ w, isSpace x = true) ∧ opens isSpace rest = false

/-- **A word with one separator is read to its end** from wherever a separator is read. -/
theorem Separated.reach {word rest tail w₁ w₂ out word' rest' : PyStr}
    (h : Separated word rest) (htail : ∀ x ∈ tail, isStop x = false)
    (hspace : opens isSpace (tail ++ redacted) = false) (hw : w₁ ++ w₂ = word ++ tail)
    (h' : Separated word' rest') (hread : w₂ ++ (redacted ++ out) = word' ++ rest') :
    rest' = tail ++ (redacted ++ out) := by
  obtain ⟨pre, c, w, rfl, hpre, hc, hblank, -⟩ := h
  obtain ⟨pre', c', w', rfl, hpre', hc', hblank', hrest'⟩ := h'
  have hne : tail ++ redacted ≠ [] := List.append_ne_nil_of_right_ne_nil _ (by decide)
  have hbehind : opens isSpace (tail ++ (redacted ++ out)) = false := by
    rw [← List.append_assoc, opens_append hne]
    exact hspace
  have hstop : ∀ {d}, isSep d = true → isStop d = true := fun hd => by simp [isStop, hd]
  have hsame : ∀ a, (∀ x ∈ a, isStop x = false) → w₂ = a ++ c :: (w ++ tail) →
      rest' = tail ++ (redacted ++ out) := by
    rintro a ha rfl
    have hsplit : a ++ c :: (w ++ (tail ++ (redacted ++ out))) = pre' ++ c' :: (w' ++ rest') := by
      simpa using hread
    obtain ⟨-, hs⟩ := stop_unique ha hpre' (hstop hc) (hstop hc') hsplit
    exact (run_unique hblank hblank' hbehind hrest' hs).symm
  have hword : w₁ ++ w₂ = pre ++ (c :: (w ++ tail)) := by simpa using hw
  rcases List.append_eq_append_iff.mp hword with ⟨a, hpre₂, hw₂⟩ | ⟨a, -, hw₂⟩
  · exact hsame a (fun x hx => hpre x (hpre₂ ▸ List.mem_append_right _ hx)) hw₂
  · cases a with
    | nil => exact hsame [] (by simp) hw₂.symm
    | cons d a =>
        obtain ⟨-, hbehind₂⟩ := List.cons.inj hw₂
        have hnone : ∀ x ∈ w₂, isStop x = false := by
          intro x hx
          have hmem : x ∈ w ++ tail := hbehind₂ ▸ List.mem_append_right _ hx
          rcases List.mem_append.mp hmem with hx | hx
          · exact not_stop_of_space (hblank x hx)
          · exact htail x hx
        have hmark : redacted ++ out = 60 :: (py "redacted>" ++ out) := rfl
        have hsplit : w₂ ++ 60 :: (py "redacted>" ++ out) = pre' ++ c' :: (w' ++ rest') := by
          rw [← hmark, hread]
          simp
        obtain ⟨rfl, -⟩ := stop_unique hnone hpre' (by decide) (hstop hc') hsplit
        contradiction

/-- What is read up to a separator and the white space behind it. -/
theorem sep_word {s : PyStr} {y : Reading Nat} (h : sepScan s = some y) {pre : PyStr}
    (hpre : ∀ x ∈ pre, isStop x = false) : Separated (pre ++ y.word) y.rest := by
  obtain ⟨v, hv, x, hx, rfl⟩ := Scanner.andThen_eq_some.mp h
  obtain ⟨z, hz, w, hw, rfl⟩ := Scanner.andThen_eq_some.mp hx
  obtain ⟨c, t, -, hc, rfl⟩ := Scanner.one_eq_some.mp hz
  obtain rfl := Option.some.inj hv
  obtain rfl := Option.some.inj hw
  refine ⟨pre ++ s.takeWhile isSpace, c, t.takeWhile isSpace, by simp, ?_, hc,
    mem_takeWhile, opens_dropWhile _ _⟩
  intro x hx
  rcases List.mem_append.mp hx with hx | hx
  · exact hpre x hx
  · exact not_stop_of_space (mem_takeWhile x hx)

/-- What is read of letters. -/
theorem letters_word {w : String} (hw : ∀ l ∈ py w, l = 45 ∨ 97 ≤ l ∧ l ≤ 122) :
    (Scanner.chars (anyCase w)).Within fun c => isStop c = false ∧ isSpace c = false ∧
      isQuote c = false ∧ isCredential c = true ∧ c ≠ 63 :=
  fun s y h c hc => letter_facts (hw _ (chars_fold w s y h c hc))

/-- No separator is read of letters. -/
theorem letters_stop {w : String} (hw : ∀ l ∈ py w, l = 45 ∨ 97 ≤ l ∧ l ≤ 122) :
    (Scanner.chars (anyCase w)).Within fun c => isStop c = false :=
  fun s y h c hc => (letters_word hw s y h c hc).1

theorem header_word {s : PyStr} {h : Reading Nat} (hh : headerScan s = some h) :
    Separated h.word h.rest := by
  obtain ⟨name, hname, sep, hsep, rfl⟩ := Scanner.andThen_eq_some.mp hh
  exact sep_word hsep (letters_stop (by decide) _ _ hname)

/-- No separator is read of two words with a dash. -/
theorem dashed_stop {first second : String}
    (hfirst : ∀ l ∈ py first, l = 45 ∨ 97 ≤ l ∧ l ≤ 122)
    (hsecond : ∀ l ∈ py second, l = 45 ∨ 97 ≤ l ∧ l ≤ 122) :
    (dashedScan first second).Within fun c => isStop c = false := by
  have hdash : ∀ c, isDash c = true → isStop c = false := by
    intro c hc
    simp only [isDash, Bool.or_eq_true, beq_iff_eq] at hc
    rcases hc with rfl | rfl <;> decide
  exact (letters_stop hfirst).andThen ((Scanner.Within.one hdash).opt.andThen
    (letters_stop hsecond))

theorem name_stop : nameScan.Within fun c => isStop c = false :=
  (dashed_stop (by decide) (by decide)).orElse
    ((dashed_stop (by decide) (by decide)).orElse
      ((letters_stop (by decide)).orElse (dashed_stop (by decide) (by decide))))

/-- A token field is a word that ends with a separator, and perhaps a quote. -/
theorem field_word {s : PyStr} {l : Reading Nat} (h : fieldScan s = some l) :
    ∃ word q, l.word = word ++ q ∧ Separated word (q ++ l.rest) ∧
      (q = [] ∨ ∃ d, q = [d] ∧ isQuote d = true) ∧
      quoteScan (q ++ l.rest) = some ⟨q, [], l.rest⟩ := by
  obtain ⟨q₁, name, q₂, sep, q₃, hq₁, hname, hq₂, hsep, hq₃, rfl⟩ := field_groups h
  have hquote : ∀ {s q}, quoteScan s = some q → ∀ x ∈ q.word, isStop x = false := by
    intro s q hq x hx
    rcases quote_word hq with hnil | ⟨d, hd, hclass⟩
    · rw [hnil] at hx
      exact absurd hx List.not_mem_nil
    · rw [hd] at hx
      rw [List.mem_singleton.mp hx]
      exact not_stop_of_quote hclass
  have hsplit : sep.rest = q₃.word ++ q₃.rest :=
    quote_splits _ _ hq₃
  refine ⟨(q₁.word ++ (name.word ++ q₂.word)) ++ sep.word, q₃.word, by simp, ?_,
    quote_word hq₃, ?_⟩
  · have hpre : ∀ x ∈ q₁.word ++ (name.word ++ q₂.word), isStop x = false := by
      intro x hx
      rcases List.mem_append.mp hx with hx | hx
      · exact hquote hq₁ x hx
      · rcases List.mem_append.mp hx with hx | hx
        · exact name_stop _ _ hname x hx
        · exact hquote hq₂ x hx
    have := sep_word hsep hpre
    rwa [hsplit] at this
  · rw [← hsplit, hq₃]
    exact congrArg some (by rw [← quote_plain _ _ hq₃])

/-! ## What is followed by a mark -/

/-- What is read is followed by a mark, if by anything of a class. -/
def Sealed (σ : Scanner Nat) (p : Nat → Bool) (s : PyStr) : Prop :=
  ∀ l, σ s = some l → Marked p l.rest

theorem Sealed.of_none {σ : Scanner Nat} {p : Nat → Bool} {s : PyStr} (h : σ s = none) :
    Sealed σ p s := by
  intro l hl
  rw [h] at hl
  contradiction

section Keeps

variable {p : Nat → Bool} {site : Sites Nat} {b : Option Nat} {s t o : PyStr}

/-- A seal survives edits that a scanner sees through. -/
theorem Sealed.keep {σ : Scanner Nat} (hσ : Scanner.Tracks site σ) (h : Respects p site)
    (hmark : ∀ c ∈ redacted, p c = true) (hedit : Edited site b t o) (ht : Sealed σ p t) :
    Sealed σ p o := by
  intro l hl
  obtain ⟨x, b', hx, hrest⟩ := hσ b t o hedit l hl
  exact h.marked hmark hrest (ht x hx)

/-- What holds at every place of a text holds at every place when edits keep it, and it holds
in marks. -/
theorem Respects.everywhere (h : Respects p site) {Good : PyStr → Prop} (hnil : Good [])
    (hkeep : ∀ b t o, Edited site b t o → Good t → Good o) (hout : ∀ s, InMark s → Good s)
    (hedit : Edited site b t o) (hgood : ∀ v, v <:+ t → Good v) : ∀ v, v <:+ o → Good v :=
  fun _ hv => hedit.preserves hnil
    (fun c t o hc hrest => hkeep none (c :: t) (c :: o) (Edited.keep c hrest) hc)
    (fun _ _ _ _ o hsite _ m₁ m₂ hm hne => hout _ (h.inMark _ _ _ _ hsite m₁ m₂ hm hne o))
    hgood hv

/-! ### What the scanners see through -/

theorem Respects.mirrors_chars (h : Respects p site) {classes : List (Nat → Bool)}
    (hclasses : ∀ q ∈ classes, q 60 = false ∧ q 63 = false) :
    Scanner.Mirrors site (Scanner.chars classes) :=
  Scanner.Mirrors.chars fun q hq => h.mark_opens (hclasses q hq)

theorem Respects.mirrors_space (h : Respects p site) :
    Scanner.Mirrors site (Scanner.span isSpace) :=
  Scanner.Mirrors.span (fun _ _ _ _ hsite => (h.region hsite).1) (h.mark_opens (by decide))

theorem Respects.mirrors_quote (h : Respects p site) : Scanner.Mirrors site quoteScan := by
  have heq : quoteScan = Scanner.opt (Scanner.one isQuote) := by
    funext s
    rw [quoteScan_eq]
    cases s with
    | nil => rfl
    | cons c s =>
        by_cases hc : isQuote c = true <;>
          simp [Scanner.opt, Scanner.orElse, Scanner.one, Scanner.empty, hc]
  rw [heq]
  exact Scanner.Mirrors.opt (fun _ _ _ _ hsite => (h.region hsite).2) (h.mark_opens (by decide))

theorem Respects.mirrors_sep (h : Respects p site) : Scanner.Mirrors site sepScan :=
  h.mirrors_space.andThen ((Scanner.Mirrors.one (h.mark_opens (by decide))).andThen h.mirrors_space)

theorem Respects.mirrors_header (h : Respects p site) : Scanner.Mirrors site headerScan :=
  (h.mirrors_chars (by decide)).andThen h.mirrors_sep

theorem Respects.mirrors_scheme (h : Respects p site) : Scanner.Mirrors site schemeScan :=
  (h.mirrors_chars (by decide)).andThen (Scanner.Mirrors.plus
    (fun _ _ _ _ hsite => (h.region hsite).1) (h.mark_opens (by decide)))

theorem Respects.mirrors_plus (h : Respects p site) : Scanner.Mirrors site plusScan :=
  (h.mirrors_chars (by decide)).andThen (Scanner.Mirrors.one (h.mark_opens (by decide)))

theorem Respects.mirrors_dashed (h : Respects p site) {first second : String} {l : Nat → Bool}
    {ls : List (Nat → Bool)} (hsecond : anyCase second = l :: ls)
    (hclasses : ∀ q ∈ anyCase first ++ anyCase second, q 60 = false ∧ q 63 = false) :
    Scanner.Mirrors site (dashedScan first second) := by
  have hl := hclasses l (by simp [hsecond])
  refine (h.mirrors_chars fun q hq => hclasses q (List.mem_append_left _ hq)).andThen
    (Scanner.Mirrors.opt_andThen (q := l)
      (h.mirrors_chars fun q hq => hclasses q (List.mem_append_right _ hq)) ?_ ?_)
  · intro s y hy
    rw [hsecond] at hy
    obtain ⟨x, hx, -⟩ := Scanner.andThen_eq_some.mp hy
    obtain ⟨d, t, rfl, hd, -⟩ := Scanner.one_eq_some.mp hx
    exact hd
  · exact fun b r m t hsite => ⟨h.mark_opens (by decide) b r m t hsite,
      h.mark_opens hl b r m t hsite⟩

theorem Respects.mirrors_name (h : Respects p site) : Scanner.Mirrors site nameScan :=
  (h.mirrors_dashed rfl (by decide)).orElse
    ((h.mirrors_dashed rfl (by decide)).orElse
      ((h.mirrors_chars (by decide)).orElse (h.mirrors_dashed rfl (by decide))
        fun _ _ => signed_refused)
      fun _ _ => secret_refused)
    fun _ _ => api_refused

theorem Respects.mirrors_field (h : Respects p site) : Scanner.Mirrors site fieldScan :=
  (h.mirrors_quote.capture 1).andThen ((h.mirrors_name.capture 2).andThen
    ((h.mirrors_quote.capture 3).andThen ((h.mirrors_sep.capture 4).andThen
      (h.mirrors_quote.capture 5))))

end Keeps

/-! ## Headers -/

/-- A header is read with its scheme, or without. -/
theorem lead_cases {s : PyStr} {l : Reading Nat} (h : leadScan s = some l) :
    ∃ x, headerScan s = some x ∧
      ((∃ z, schemeScan x.rest = some z ∧ opens isCredential z.rest = true ∧
        l.word = x.word ++ z.word ∧ l.rest = z.rest) ∨
      ((∀ z, schemeScan x.rest = some z → opens isCredential z.rest = false) ∧
        l.word = x.word ∧ l.rest = x.rest)) := by
  obtain ⟨x, hx, y, hy, rfl⟩ := Scanner.andThen_eq_some.mp h
  refine ⟨x, hx, ?_⟩
  obtain rfl := Option.some.inj hy
  cases hz : schemeScan x.rest with
  | none => exact Or.inr ⟨fun z hz => by contradiction, by simp, by simp⟩
  | some z =>
      by_cases hopen : opens isCredential z.rest = true
      · exact Or.inl ⟨z, rfl, hopen, by simp [Option.filter, hopen],
          by simp [Option.filter, hopen]⟩
      · refine Or.inr ⟨fun w hw => ?_, by simp [Option.filter, hopen],
          by simp [Option.filter, hopen]⟩
        obtain rfl := Option.some.inj hw
        simpa using hopen

theorem lead_scheme {s : PyStr} {x z : Reading Nat} (hx : headerScan s = some x)
    (hz : schemeScan x.rest = some z) (hopen : opens isCredential z.rest = true) :
    ∃ l, leadScan s = some l ∧ l.rest = z.rest := by
  have hlead : schemeScan.optAhead isCredential x.rest = some z := by
    simp [Scanner.optAhead, hz, Option.filter, hopen]
  exact ⟨_, Scanner.andThen_eq_some.mpr ⟨x, hx, z, hlead, rfl⟩, rfl⟩

theorem lead_bare {s : PyStr} {x : Reading Nat} (hx : headerScan s = some x)
    (hnone : ∀ z, schemeScan x.rest = some z → opens isCredential z.rest = false) :
    ∃ l, leadScan s = some l ∧ l.rest = x.rest := by
  have hlead : schemeScan.optAhead isCredential x.rest = some ⟨[], [], x.rest⟩ := by
    cases hz : schemeScan x.rest with
    | none => simp [Scanner.optAhead, hz]
    | some z => simp [Scanner.optAhead, hz, Option.filter, hnone z hz]
  exact ⟨_, Scanner.andThen_eq_some.mpr ⟨x, hx, _, hlead, rfl⟩, rfl⟩

/-- A scheme is a word of letters with white space behind it. -/
theorem scheme_word {s : PyStr} {z : Reading Nat} (h : schemeScan s = some z) :
    ∃ letters c blank, z.word = letters ++ c :: blank ∧ letters.length = 6 ∧
      (∀ x ∈ letters, isStop x = false ∧ isSpace x = false ∧ isQuote x = false ∧
        isCredential x = true ∧ x ≠ 63) ∧ ∀ x ∈ c :: blank, isSpace x = true := by
  obtain ⟨y, hy, w, hw, rfl⟩ := Scanner.andThen_eq_some.mp h
  obtain ⟨hopen, rfl⟩ := Scanner.plus_eq_some.mp hw
  obtain ⟨c, blank, hblank⟩ := List.exists_cons_of_ne_nil (takeWhile_ne_nil hopen)
  refine ⟨y.word, c, blank, by rw [← hblank], Scanner.chars_length hy,
    letters_word (by decide) _ _ hy, ?_⟩
  rw [← hblank]
  exact mem_takeWhile

/-- A scheme is read again in front of anything but white space. -/
theorem scheme_again {s : PyStr} {z : Reading Nat} (h : schemeScan s = some z) {u : PyStr}
    (hu : opens isSpace u = false) : schemeScan (z.word ++ u) = some ⟨z.word, [], u⟩ := by
  obtain ⟨y, hy, w, hw, rfl⟩ := Scanner.andThen_eq_some.mp h
  obtain ⟨hopen, rfl⟩ := Scanner.plus_eq_some.mp hw
  have hblank := takeWhile_ne_nil hopen
  have hopen' : opens isSpace (y.rest.takeWhile isSpace ++ u) = true := by
    rw [opens_append hblank]
    cases hrun : y.rest.takeWhile isSpace with
    | nil => contradiction
    | cons c t => exact mem_takeWhile c (hrun ▸ List.mem_cons_self)
  have hplus : Scanner.plus isSpace (y.rest.takeWhile isSpace ++ u) =
      some ⟨y.rest.takeWhile isSpace, [], u⟩ := by
    rw [Scanner.plus, if_pos hopen', Scanner.span, List.takeWhile_append_of_pos mem_takeWhile,
      List.dropWhile_append_of_pos mem_takeWhile, dropWhile_of_not_opens hu]
    cases u with
    | nil => simp
    | cons c u => simp [List.takeWhile_cons_of_neg, show ¬ isSpace c = true by simpa using hu]
  rw [List.append_assoc]
  refine Scanner.andThen_eq_some.mpr ⟨_, Scanner.chars_again hy _, _, hplus, ?_⟩
  rw [Scanner.Plain.chars _ _ _ hy]
  rfl

/-- Where a scheme begins, there is a credential that is no mark. -/
theorem scheme_unmarked {s : PyStr} {z : Reading Nat} (h : schemeScan s = some z) :
    ¬ Marked isCredential s := by
  obtain ⟨letters, c, blank, hword, hlen, hletters, -⟩ := scheme_word h
  have hs := scheme_commits.splits s z h
  intro hmarked
  cases letters with
  | nil => contradiction
  | cons d letters =>
      obtain ⟨hstop, -, -, hd, -⟩ := hletters d List.mem_cons_self
      rw [hword] at hs
      rw [hs] at hmarked
      have hrun := hmarked hd
      rw [List.cons_append, List.cons_append, List.takeWhile_cons_of_pos hd] at hrun
      obtain ⟨rfl, -⟩ := List.cons.inj hrun
      contradiction

/-- Edits that keep schemes, or replace all of what a header has behind it. -/
def SchemeKept (site : Sites Nat) : Prop :=
  ∀ b t o z, Edited site b t o → schemeScan t = some z → Marked isCredential o ∨
    ∃ o' b', o = z.word ++ o' ∧ Edited site b' z.rest o'

/-- Where a credential was, one is, or a mark. -/
theorem Respects.opens_kept {p : Nat → Bool} {site : Sites Nat} (h : Respects p site)
    {b : Option Nat} {t o : PyStr} (hedit : Edited site b t o)
    (ht : opens isCredential t = true) : opens isCredential o = true := by
  cases hedit with
  | nil => contradiction
  | keep c _ => exact ht
  | edit hsite _ _ _ => rcases h.mark hsite with rfl | rfl | rfl <;> rfl

/-- **A sealed header stays sealed.** -/
theorem Respects.keeps_lead {site : Sites Nat} (h : Respects isCredential site)
    (hkept : SchemeKept site) {b : Option Nat} {t o : PyStr} (hedit : Edited site b t o)
    (ht : Sealed leadScan isCredential t) : Sealed leadScan isCredential o := by
  have hmark : ∀ c ∈ redacted, isCredential c = true := fun c hc => (redacted_chars c hc).1
  intro l hl
  obtain ⟨x, hx, hcase⟩ := lead_cases hl
  obtain ⟨t₁, hx', hrest⟩ := h.mirrors_header b t o hedit x hx
  rcases hcase with ⟨z, hz, hopen, -, hlrest⟩ | ⟨hnone, -, hlrest⟩
  · obtain ⟨t₂, hz', hrest'⟩ := h.mirrors_scheme _ _ _ hrest z hz
    rw [hlrest]
    by_cases hopen' : opens isCredential t₂ = true
    · obtain ⟨l', hl', hl'rest⟩ := lead_scheme hx' hz' hopen'
      have hsealed := ht l' hl'
      rw [hl'rest] at hsealed
      exact h.marked hmark hrest' hsealed
    · obtain ⟨l', hl', hl'rest⟩ := lead_bare hx' fun w hw => by
        rw [hz', Option.some.injEq] at hw
        rw [← hw]
        simpa using hopen'
      have hsealed := ht l' hl'
      rw [hl'rest] at hsealed
      exact absurd hsealed (scheme_unmarked hz')
  · rw [hlrest]
    by_cases hscheme : ∃ z, schemeScan t₁ = some z ∧ opens isCredential z.rest = true
    · obtain ⟨z, hz, hopen⟩ := hscheme
      obtain ⟨l', hl', hl'rest⟩ := lead_scheme hx' hz hopen
      have hsealed := ht l' hl'
      rw [hl'rest] at hsealed
      rcases hkept _ _ _ z hrest hz with hmarked | ⟨o', b', ho', hrest'⟩
      · exact hmarked
      · have hopen' : opens isCredential o' = true := h.opens_kept hrest' hopen
        have hspace : opens isSpace o' = false := by
          cases o' with
          | nil => contradiction
          | cons c o' =>
              cases hc : isSpace c with
              | false => exact hc
              | true =>
                  rw [opens_cons, not_credential_of_space hc] at hopen'
                  contradiction
        have hfalse := hnone ⟨z.word, [], o'⟩ (by rw [ho']; exact scheme_again hz hspace)
        rw [hopen'] at hfalse
        contradiction
    · obtain ⟨l', hl', hl'rest⟩ := lead_bare hx' fun z hz => by
        by_contra hopen
        exact hscheme ⟨z, hz, by simpa using hopen⟩
      have hsealed := ht l' hl'
      rw [hl'rest] at hsealed
      exact h.marked hmark hrest hsealed

/-- Replacing runs keeps schemes: a run begins behind them, or is all of them. -/
theorem runSite_scheme {p : Nat → Bool} (hsub : ∀ c, isCredential c = true → p c = true)
    (hp : ∀ c, p c = true → isSpace c = false ∧ isQuote c = false) :
    SchemeKept (RunSite p) := by
  intro b t o z hedit hz
  obtain ⟨letters, sp, blank, hword, hlen, hletters, hblank⟩ := scheme_word hz
  have hs := scheme_commits.splits t z hz
  have hrespects := runSite_respects hsub hp
  cases hedit with
  | nil => exact absurd hs.symm (by simp [hword])
  | @edit _ r m t o hsite hr hm h' =>
      rw [hsite.mark]
      exact Or.inl fun _ => Respects.takeWhile_mark (fun c hc => (redacted_chars c hc).1)
        (opens_subclass hsub (hsite.behind h'))
  | @keep _ c t o h' =>
      obtain ⟨d, letters, rfl⟩ := List.exists_cons_of_ne_nil
        (List.ne_nil_of_length_pos (l := letters) (by omega))
      rw [hword, List.cons_append, List.cons_append] at hs
      obtain ⟨rfl, rfl⟩ := List.cons.inj hs
      have hinside : ∀ w₁ w₂, letters ++ sp :: blank = w₁ ++ w₂ → w₂ ≠ [] → ∀ r m t',
          r ++ t' = w₂ ++ z.rest → r ≠ [] → ¬ RunSite p (lastOf (some c) w₁) r m t' := by
        intro w₁ w₂ hw hne r m t' hr hrne hsite
        rcases List.append_eq_append_iff.mp hw with ⟨a, -, hw₂⟩ | ⟨a, hw₁, -⟩
        · -- a run does not begin with white space
          obtain ⟨e, r, rfl⟩ := List.exists_cons_of_ne_nil hrne
          obtain ⟨e', w₂, rfl⟩ := List.exists_cons_of_ne_nil hne
          obtain ⟨rfl, -⟩ := List.cons.inj hr
          have hspace := hblank e (hw₂ ▸ List.mem_append_right a List.mem_cons_self)
          rw [(hp e (hsite.region e List.mem_cons_self)).1] at hspace
          contradiction
        · -- and not behind a letter
          obtain ⟨e, he, hclass⟩ := hsite.before
          obtain ⟨e', hmem, hlast⟩ := lastOf_mem (List.cons_ne_nil c w₁) none
          rw [lastOf_cons, he, Option.some.injEq] at hlast
          have hletter : e ∈ c :: letters := by
            rw [hlast, hw₁]
            exact List.mem_cons.mpr ((List.mem_cons.mp hmem).imp_right (List.mem_append_left a))
          obtain ⟨hstop, hspace, hquote, -, -⟩ := hletters e hletter
          rw [isStop, Bool.or_eq_false_iff] at hstop
          simp [hstop.1, hspace, hquote] at hclass
      obtain ⟨o', rfl, hrest⟩ := Edited.through hinside h'
      exact Or.inr ⟨o', _, by rw [hword]; simp, hrest⟩

/-- Edits with regions that schemes have no place for keep schemes. -/
theorem scheme_through {site : Sites Nat} (hinside : ∀ b r m t, site b r m t →
      (∃ run, r = 63 :: run) ∨ IsKeypair r) : SchemeKept site := by
  intro b t o z hedit hz
  obtain ⟨letters, sp, blank, hword, hlen, hletters, hblank⟩ := scheme_word hz
  have hs := scheme_commits.splits t z hz
  have hspace := hblank sp List.mem_cons_self
  rw [hs] at hedit
  obtain ⟨o', rfl, hrest⟩ := Edited.through (fun w₁ w₂ hw hne r m t' hr hrne hsite => by
    rw [hword] at hw
    rcases hinside _ _ _ _ hsite with ⟨run, rfl⟩ | hpair
    · obtain ⟨e, w₂, rfl⟩ := List.exists_cons_of_ne_nil hne
      obtain ⟨rfl, -⟩ := List.cons.inj hr
      have hmem : 63 ∈ letters ++ sp :: blank := hw ▸ List.mem_append_right _ List.mem_cons_self
      rcases List.mem_append.mp hmem with hmem | hmem
      · exact (hletters 63 hmem).2.2.2.2 rfl
      · exact absurd (hblank 63 hmem) (by decide)
    · have hblank₂ : ∃ v e w, w₂ = v ++ e :: w ∧ v.length ≤ 6 ∧ isSpace e = true := by
        rcases List.append_eq_append_iff.mp hw with ⟨a, -, hw₂⟩ | ⟨a, hw₁, hw₂⟩
        · obtain ⟨e, w, rfl⟩ := List.exists_cons_of_ne_nil hne
          exact ⟨[], e, w, rfl, by simp,
            hblank e (hw₂ ▸ List.mem_append_right a List.mem_cons_self)⟩
        · refine ⟨a, sp, blank, hw₂, ?_, hspace⟩
          have := congrArg List.length hw₁
          rw [List.length_append] at this
          omega
      obtain ⟨v, e, w, rfl, hv, he⟩ := hblank₂
      have hchar : ¬ (isKeyChar e = true ∨ e = 58) := by
        intro hkey
        have := credential_of_keyChar hkey
        rw [not_credential_of_space he] at this
        contradiction
      have hlen₂ : (v ++ [e]).length ≤ 41 := by
        rw [List.length_append, List.length_singleton]
        omega
      have hapart : r ++ t' ≠ (v ++ [e]) ++ (w ++ z.rest) :=
        hpair.not_prefix (c := e) (by simp) hchar hlen₂
      exact hapart (by simpa using hr)) hedit
  exact Or.inr ⟨o', _, rfl, hrest⟩

/-! ## The first passes settle -/

section Passes

variable {P : Pattern Nat} {f : Point Nat → PyStr} {site : Sites Nat}

/-- **What a pass leaves at every place.**  It is to hold where the pattern finds nothing, to
survive edits, and to hold from every place of what is kept of a match. -/
theorem pass_places {Good : PyStr → Prop} (hnil : Good [])
    (hedited : ∀ b s, Edited site b s (P.sub f b s))
    (hkeep : ∀ b t o, Edited site b t o → Good t → Good o) (hout : ∀ s, InMark s → Good s)
    (hnone : ∀ b s, P.first b s = none → Good s)
    (hhit : ∀ b s m, P.first b s = some m → ∃ kept mark, f m = kept ++ mark ∧
      (mark = redacted ∨ mark = 63 :: redacted ∨ mark = keypairMark) ∧
        ∀ w₁ w₂, kept = w₁ ++ w₂ → Good (w₂ ++ (mark ++ P.sub f m.before m.rest)))
    (b : Option Nat) (s : PyStr) : ∀ v, v <:+ P.sub f b s → Good v := by
  refine Pattern.sub_places hnil ?_ ?_ b s
  · exact fun b c s hfirst =>
      hkeep b (c :: s) _ (Edited.keep c (hedited _ _)) (hnone b _ hfirst)
  · intro b s m hm v₁ v₂ hf hne
    obtain ⟨kept, mark, hfm, hknown, hgood⟩ := hhit b s m hm
    rw [hfm] at hf
    rcases List.append_eq_append_iff.mp hf with ⟨a, -, hmark⟩ | ⟨a, hkept, rfl⟩
    · exact hout _ (InMark.of_append hmark hne hknown)
    · rw [List.append_assoc]
      exact hgood v₁ a hkept

end Passes

/-- A mark in front of what ends a class. -/
theorem marked_redacted {p : Nat → Bool} (hmark : ∀ c ∈ redacted, p c = true) {out : PyStr}
    (hout : opens p out = false) : Marked p (redacted ++ out) :=
  fun _ => Respects.takeWhile_mark hmark hout

/-- From every place of a header that is read with its mark behind it, nothing else is read. -/
theorem lead_sealed {s : PyStr} {l : Reading Nat} (hl : leadScan s = some l) {w₁ w₂ out : PyStr}
    (hw : l.word = w₁ ++ w₂) (hout : opens isCredential out = false) :
    Sealed leadScan isCredential (w₂ ++ (redacted ++ out)) := by
  intro l' hl'
  have hmarked : Marked isCredential (redacted ++ out) :=
    marked_redacted (fun c hc => (redacted_chars c hc).1) hout
  obtain ⟨x, hx, hcase⟩ := lead_cases hl
  obtain ⟨x', hx', hcase'⟩ := lead_cases hl'
  have hread := header_commits.splits _ _ hx'
  rcases hcase with ⟨z, hz, -, hword, -⟩ | ⟨-, hword, -⟩
  · obtain ⟨letters, c, blank, hz₁, hlen, hletters, hblank⟩ := scheme_word hz
    have htail : ∀ x ∈ z.word, isStop x = false := by
      intro x hx
      rw [hz₁] at hx
      rcases List.mem_append.mp hx with hx | hx
      · exact (hletters x hx).1
      · exact not_stop_of_space (hblank x hx)
    have hspace : opens isSpace (z.word ++ redacted) = false := by
      obtain ⟨d, letters, rfl⟩ := List.exists_cons_of_ne_nil
        (List.ne_nil_of_length_pos (l := letters) (by omega))
      rw [hz₁]
      exact (hletters d List.mem_cons_self).2.1
    have hrest := (header_word hx).reach htail hspace (hw.symm.trans hword) (header_word hx')
      hread
    have hz' : schemeScan x'.rest = some ⟨z.word, [], redacted ++ out⟩ := by
      rw [hrest]
      exact scheme_again hz rfl
    rcases hcase' with ⟨w, hw, -, -, hl'rest⟩ | ⟨hnone, -, -⟩
    · rw [hz', Option.some.injEq] at hw
      rw [hl'rest, ← hw]
      exact hmarked
    · have hfalse := hnone _ hz'
      contradiction
  · have htail : ∀ x ∈ ([] : PyStr), isStop x = false := by simp
    have hrest := (header_word hx).reach htail rfl (by rw [List.append_nil, ← hw, hword])
      (header_word hx') hread
    rw [List.nil_append] at hrest
    rcases hcase' with ⟨w, hw, -, -, -⟩ | ⟨-, -, hl'rest⟩
    · rw [hrest] at hw
      have hnone : schemeScan (redacted ++ out) = none := andThen_none
        (chars_refuses (p := fun c => foldCase c == 98) (by decide) _ (py "redacted>" ++ out))
      rw [hnone] at hw
      contradiction
    · rw [hl'rest, hrest]
      exact hmarked

/-- **Headers are sealed** by their pass. -/
theorem bearer_sealed (b : Option Nat) (s : PyStr) :
    ∀ v, v <:+ bearer.sub (keeping [1] redacted) b s → Sealed leadScan isCredential v := by
  have hrespects : Respects isCredential (RunSite isCredential) :=
    runSite_respects (fun _ h => h) credential_facts
  refine pass_places (Sealed.of_none rfl) bearer_edited
    (fun _ _ _ => hrespects.keeps_lead (runSite_scheme (fun _ h => h) credential_facts))
    (fun s hs => Sealed.of_none (andThen_none (header_outside s hs))) ?_ ?_ b s
  · intro b s hnone l hl hopen
    rw [bearer_found.mpr ⟨l, hl, hopen, rfl⟩] at hnone
    contradiction
  · intro b s m hm
    obtain ⟨l, hl, hopen, rfl⟩ := bearer_found.mp hm
    refine ⟨l.word, redacted, keeping_header, Or.inl rfl, fun w₁ w₂ hw => ?_⟩
    exact lead_sealed hl hw ((header_site hl hopen b).behind (bearer_edited _ _))

/-- A quote is read again in front of anything but a quote. -/
theorem quote_again {q u : PyStr} (hq : q = [] ∨ ∃ d, q = [d] ∧ isQuote d = true)
    (hu : opens isQuote u = false) : quoteScan (q ++ u) = some ⟨q, [], u⟩ := by
  rw [quoteScan_eq]
  rcases hq with rfl | ⟨d, rfl, hd⟩
  · rw [List.nil_append, hu]
    rfl
  · simp [Scanner.one, hd]

/-- From every place of a token field that is read with its mark behind it, nothing else is
read. -/
theorem field_sealed {s : PyStr} {l : Reading Nat} (hl : fieldScan s = some l)
    {w₁ w₂ out : PyStr} (hw : l.word = w₁ ++ w₂) (hout : opens isTokenChar out = false) :
    Sealed fieldScan isTokenChar (w₂ ++ (redacted ++ out)) := by
  intro l' hl'
  obtain ⟨word, q, hword, hsep, hq, -⟩ := field_word hl
  obtain ⟨word', q', hword', hsep', -, hquote⟩ := field_word hl'
  have hread := field_commits.splits _ _ hl'
  rw [hword', List.append_assoc] at hread
  have htail : (∀ x ∈ q, isStop x = false) ∧ opens isSpace (q ++ redacted) = false := by
    rcases hq with rfl | ⟨d, rfl, hd⟩
    · exact ⟨by simp, rfl⟩
    · exact ⟨by simpa using not_stop_of_quote hd, not_space_of_quote hd⟩
  have hrest := hsep.reach htail.1 htail.2 (hw.symm.trans hword) hsep' hread
  rw [hrest, quote_again hq rfl, Option.some.injEq, Reading.mk.injEq] at hquote
  rw [← hquote.2.2]
  exact marked_redacted (fun c hc => (redacted_chars c hc).2.1) hout

/-- **Token fields are sealed** by their pass. -/
theorem tokenField_sealed (b : Option Nat) (s : PyStr) :
    ∀ v, v <:+ tokenField.sub (keeping [1, 2, 3, 4, 5] redacted) b s →
      Sealed fieldScan isTokenChar v := by
  have hrespects : Respects isTokenChar (RunSite isTokenChar) :=
    runSite_respects (fun _ h => h) tokenChar_facts
  refine pass_places (Sealed.of_none rfl) tokenField_edited
    (fun _ _ _ => Sealed.keep (Scanner.Tracks.of_mirrors hrespects.mirrors_field) hrespects
      fun c hc => (redacted_chars c hc).2.1)
    (fun s hs => Sealed.of_none (field_outside s hs)) ?_ ?_ b s
  · intro b s hnone l hl hopen
    rw [tokenField_found.mpr ⟨l, hl, hopen, rfl⟩] at hnone
    contradiction
  · intro b s m hm
    obtain ⟨l, hl, hopen, rfl⟩ := tokenField_found.mp hm
    refine ⟨l.word, redacted, keeping_field hl, Or.inl rfl, fun w₁ w₂ hw => ?_⟩
    exact field_sealed hl hw ((field_site hl hopen b).behind (tokenField_edited _ _))

/-! ## Queries -/

/-- Reads a URL up to its question mark. -/
def baseScan (literal : String → List (Nat → Bool)) : Scanner Nat :=
  (Scanner.chars (literal "http")).andThen ((Scanner.opt (Scanner.chars (literal "s"))).andThen
    ((Scanner.chars (literal "://")).andThen (Scanner.plus isUrlChar)))

/-- The scheme of a URL, read as given or without regard to case. -/
structure Literal (literal : String → List (Nat → Bool)) : Prop where
  marks : ∀ q ∈ literal "http" ++ literal "s" ++ literal "://", q 60 = false ∧ q 63 = false
  letter : ∃ l, literal "s" = [l]
  colon : ∃ c cs, literal "://" = c :: cs
  http : ∃ h ttp, literal "http" = h :: ttp ∧ ∀ c, h c = true → foldCase c = 104

theorem literal_exactly : Literal exactly where
  marks := by decide
  letter := ⟨_, rfl⟩
  colon := ⟨_, _, rfl⟩
  http := ⟨_, _, rfl, fun c hc => by
    obtain rfl : c = 104 := eq_of_beq hc
    rfl⟩

theorem literal_anyCase : Literal anyCase where
  marks := by decide
  letter := ⟨_, rfl⟩
  colon := ⟨_, _, rfl⟩
  http := ⟨_, _, rfl, fun _ hc => eq_of_beq hc⟩

section Urls

variable {literal : String → List (Nat → Bool)} (hliteral : Literal literal)
include hliteral

theorem Literal.outside : Outside (urlScan literal) := by
  obtain ⟨h, ttp, hhttp, hfold⟩ := hliteral.http
  exact url_outside hhttp hfold

/-- The part of a URL in front of its path is read through edits. -/
theorem Literal.tracks_base {p : Nat → Bool} {site : Sites Nat} (h : Respects p site)
    (hpath : Scanner.Tracks site (Scanner.plus isUrlChar)) :
    Scanner.Tracks site (baseScan literal) := by
  obtain ⟨l, hl⟩ := hliteral.letter
  obtain ⟨c, cs, hc⟩ := hliteral.colon
  have hmarks := hliteral.marks
  have hscheme : Scanner.Mirrors site ((Scanner.opt (Scanner.chars (literal "s"))).andThen
      (Scanner.chars (literal "://"))) := by
    rw [hl, Scanner.chars_singleton]
    refine Scanner.Mirrors.opt_andThen (q := c) (h.mirrors_chars fun q hq =>
      hmarks q (List.mem_append_right _ hq)) ?_ ?_
    · intro s y hy
      rw [hc] at hy
      obtain ⟨x, hx, -⟩ := Scanner.andThen_eq_some.mp hy
      obtain ⟨d, t, rfl, hd, -⟩ := Scanner.one_eq_some.mp hx
      exact hd
    · exact fun b r m t hsite => ⟨h.mark_opens (hmarks l (by simp [hl])) b r m t hsite,
        h.mark_opens (hmarks c (by simp [hc])) b r m t hsite⟩
  rw [baseScan, ← Scanner.andThen_assoc (Scanner.opt _)]
  exact (Scanner.Tracks.of_mirrors (h.mirrors_chars fun q hq => hmarks q
    (List.mem_append_left _ (List.mem_append_left _ hq)))).andThen
      ((Scanner.Tracks.of_mirrors hscheme).andThen hpath)

/-- There is no question mark in front of a query. -/
theorem Literal.base_within : (baseScan literal).Within fun c => c ≠ 63 := by
  have hmarks := hliteral.marks
  have hchars : ∀ part, part = literal "http" ∨ part = literal "s" ∨ part = literal "://" →
      (Scanner.chars part).Within fun c => c ≠ 63 := by
    intro part hpart
    refine Scanner.Within.chars ?_
    rintro q hq c hc rfl
    have hmem : q ∈ literal "http" ++ literal "s" ++ literal "://" := by
      rcases hpart with rfl | rfl | rfl <;> simp [hq]
    rw [(hmarks q hmem).2] at hc
    contradiction
  exact (hchars _ (Or.inl rfl)).andThen ((hchars _ (Or.inr (Or.inl rfl))).opt.andThen
    ((hchars _ (Or.inr (Or.inr rfl))).andThen (Scanner.Within.plus fun c hc => by
      simpa using not_urlChar_question hc)))

/-- What is read of a URL: no question mark, and then one. -/
theorem Literal.word {s : PyStr} {l : Reading Nat} (hl : urlScan literal s = some l) :
    ∃ u, l.word = u ++ [63] ∧ ∀ c ∈ u, c ≠ 63 := by
  obtain ⟨x, hx, y, hy, rfl⟩ := Scanner.andThen_eq_some.mp hl
  obtain ⟨u, hu, rfl⟩ := (Scanner.capture_eq_some (url_plain literal)).mp hx
  obtain ⟨c, t, -, hc, rfl⟩ := Scanner.one_eq_some.mp hy
  exact ⟨u.word, by rw [eq_of_beq hc], hliteral.base_within _ u hu⟩

/-- A URL reaches up to the first question mark. -/
theorem Literal.reach {w rest : PyStr} (hw : ∀ c ∈ w, c ≠ 63) {l : Reading Nat}
    (hl : urlScan literal (w ++ 63 :: rest) = some l) : l.rest = rest := by
  have hread := url_splits literal _ _ hl
  obtain ⟨u, hword, hu⟩ := hliteral.word hl
  have hsplit : w ++ 63 :: rest = u ++ 63 :: l.rest := by
    rw [hread, hword]
    simp
  exact (stop_unique (p := fun c => c == 63) (by simpa using hw) (by simpa using hu) rfl rfl
    hsplit).2.symm

/-- Where a URL is read in a text whose queries were edited, it was read before, and its query
was edited, or is marked. -/
theorem Literal.query_keeps {b : Option Nat} {t o : PyStr}
    (hedit : Edited (fun _ => QuerySite) b t o) {l : Reading Nat}
    (hl : urlScan literal o = some l) : ∃ x, urlScan literal t = some x ∧
      ((∃ b', Edited (fun _ => QuerySite) b' x.rest l.rest) ∨
        ∃ out, l.rest = redacted ++ out ∧ opens isQueryChar out = false) := by
  have hrespects : Respects isQueryChar fun _ => QuerySite := querySite_respects rfl
  have hregion : ∀ b r m t, (fun _ : Option Nat => QuerySite) b r m t →
      opens isUrlChar r = false ∧ opens isUrlChar m = false := by
    intro b r m t hsite
    obtain ⟨run, rfl, -⟩ := hsite.region
    rw [hsite.mark]
    exact ⟨rfl, rfl⟩
  have hbase := (hliteral.tracks_base hrespects (Scanner.Tracks.of_mirrors
    (Scanner.Mirrors.plus (fun b r m t h => (hregion b r m t h).1)
      fun b r m t h => (hregion b r m t h).2))).capture 1
  obtain ⟨x, hx, y, hy, rfl⟩ := Scanner.andThen_eq_some.mp hl
  obtain ⟨x', b', hx', hrest⟩ := hbase b t o hedit x hx
  obtain ⟨c, out, hxrest, hc, rfl⟩ := Scanner.one_eq_some.mp hy
  obtain rfl : c = 63 := eq_of_beq hc
  rw [hxrest] at hrest
  generalize htext : x'.rest = text at hrest
  generalize hout : 63 :: out = edited at hrest
  cases hrest with
  | nil => contradiction
  | @keep _ d t₁ o₁ h =>
      obtain ⟨rfl, rfl⟩ := List.cons.inj hout
      exact ⟨_, Scanner.andThen_eq_some.mpr ⟨x', hx', _, by
        rw [htext]
        rfl, rfl⟩, Or.inl ⟨_, h⟩⟩
  | @edit _ region mark t₁ o₁ hsite _ _ h =>
      obtain ⟨run, rfl, -⟩ := hsite.region
      rw [hsite.mark, List.cons_append] at hout
      refine ⟨_, Scanner.andThen_eq_some.mpr ⟨x', hx', _, by
        rw [htext]
        rfl, rfl⟩, Or.inr ⟨o₁, (List.cons.inj hout).2, hsite.behind h⟩⟩

end Urls

/-! ### Signatures -/

/-- The name of a signature is here, with an equals sign. -/
def SignedHere (s : PyStr) : Prop :=
  ∃ w ∈ signatureWords, ∃ y rest, Scanner.chars (anyCase w) s = some y ∧ y.rest = 61 :: rest

theorem signed_nil : ¬ Signed [] := by
  rintro ⟨v, t, hs, -, w, -, y, rest, hy, hrest⟩
  obtain ⟨-, rfl⟩ := List.append_eq_nil_iff.mp hs.symm
  have hsplit := Scanner.Splits.chars _ _ _ hy
  rw [hrest] at hsplit
  exact absurd hsplit.symm (by simp)

theorem signed_cons {c : Nat} {s : PyStr} :
    Signed (c :: s) ↔ SignedHere (c :: s) ∨ isQueryChar c = true ∧ Signed s := by
  constructor
  · rintro ⟨v, t, hs, hv, hhere⟩
    cases v with
    | nil =>
        rw [List.nil_append] at hs
        exact Or.inl (hs ▸ hhere)
    | cons d v =>
        obtain ⟨rfl, rfl⟩ := List.cons.inj hs
        exact Or.inr ⟨hv c List.mem_cons_self,
          v, t, rfl, fun x hx => hv x (List.mem_cons_of_mem _ hx), hhere⟩
  · rintro (hhere | ⟨hc, v, t, rfl, hv, hhere⟩)
    · exact ⟨[], c :: s, rfl, by simp, hhere⟩
    · refine ⟨c :: v, t, rfl, fun x hx => ?_, hhere⟩
      rcases List.mem_cons.mp hx with rfl | hx
      · exact hc
      · exact hv x hx

theorem signed_append {w s : PyStr} (hw : ∀ c ∈ w, isQueryChar c = true) (h : Signed s) :
    Signed (w ++ s) := by
  induction w with
  | nil => exact h
  | cons c w ih =>
      exact signed_cons.mpr (Or.inr ⟨hw c List.mem_cons_self,
        ih fun x hx => hw x (List.mem_cons_of_mem _ hx)⟩)

/-- A signature begins with a character of a query. -/
theorem SignedHere.opens {s : PyStr} (h : SignedHere s) : opens isQueryChar s = true := by
  obtain ⟨w, hw, y, rest, hy, hrest⟩ := h
  have hsplit := Scanner.Splits.chars _ _ _ hy
  rw [hsplit, hrest]
  cases hword : y.word with
  | nil => rfl
  | cons c word =>
      exact chars_query (signatureWords_letters w hw) hy c (hword ▸ List.mem_cons_self)

/-- No signature begins in a mark. -/
theorem InMark.not_signed {s : PyStr} (h : InMark s) : ¬ SignedHere s := by
  obtain ⟨m, o, -, rfl, -, hmem, hequals, -⟩ := markStart_of_inMark h
  rintro ⟨w, hw, y, rest, hy, hrest⟩
  have hsplit := Scanner.Splits.chars _ _ _ hy
  have hclose : 62 ∉ y.word := by
    intro hy62
    have := signatureWords_letters w hw _ (chars_fold w _ y hy 62 hy62)
    revert this
    decide
  rw [hrest] at hsplit
  rcases List.append_eq_append_iff.mp hsplit with ⟨a, hword, -⟩ | ⟨a, hm, ha⟩
  · exact hclose (hword ▸ List.mem_append_left a hmem)
  · cases a with
    | nil =>
        rw [List.append_nil] at hm
        exact hclose (hm ▸ hmem)
    | cons d a =>
        obtain ⟨rfl, -⟩ := List.cons.inj ha
        exact hequals (hm ▸ List.mem_append_right _ List.mem_cons_self)

/-- A signature that is read behind a mark is read without it. -/
theorem signed_behind {m o : PyStr} (hm : ∀ m₂, m₂ <:+ m → m₂ ≠ [] → InMark (m₂ ++ o))
    (h : Signed (m ++ o)) : Signed o := by
  induction m with
  | nil => exact h
  | cons c m ih =>
      rcases signed_cons.mp h with hhere | ⟨-, h⟩
      · exact absurd hhere (hm _ (List.suffix_refl _) (List.cons_ne_nil c m)).not_signed
      · exact ih (fun m₂ hm₂ => hm m₂ (hm₂.trans (List.suffix_cons c m))) h

theorem not_signed_of_not_opens {s : PyStr} (h : opens isQueryChar s = false) : ¬ Signed s := by
  cases s with
  | nil => exact signed_nil
  | cons c s =>
      intro hsigned
      rcases signed_cons.mp hsigned with hhere | ⟨hc, -⟩
      · rw [hhere.opens] at h
        contradiction
      · rw [opens_cons, hc] at h
        contradiction

/-- A mark in front of what ends a query is no signed query. -/
theorem not_signed_redacted {out : PyStr} (h : opens isQueryChar out = false) :
    ¬ Signed (redacted ++ out) := by
  intro hsigned
  refine not_signed_of_not_opens h (signed_behind (fun m₂ hm₂ hne => ?_) hsigned)
  obtain ⟨m₁, hm⟩ := hm₂
  exact InMark.of_append hm.symm hne (Or.inl rfl)

/-- **Edits of queries sign nothing.** -/
theorem Respects.signed {p : Nat → Bool} {site : Sites Nat} (h : Respects p site)
    (hregion : ∀ b r m t, site b r m t → ∀ c ∈ r, isQueryChar c = true) {b : Option Nat}
    {t o : PyStr} (hedit : Edited site b t o) (ho : Signed o) : Signed t := by
  induction hedit with
  | nil => exact ho
  | @keep b c t o hedit ih =>
      rcases signed_cons.mp ho with hhere | ⟨hc, ho⟩
      · obtain ⟨w, hw, y, rest, hy, hrest⟩ := hhere
        have hmarks : ∀ w ∈ signatureWords, ∀ q ∈ anyCase w, q 60 = false ∧ q 63 = false := by
          decide
        have hkeep : Edited site b (c :: t) (c :: o) := Edited.keep c hedit
        obtain ⟨t', ht', hedit'⟩ := h.mirrors_chars (hmarks w hw) _ _ _ hkeep y hy
        rw [hrest] at hedit'
        obtain ⟨t'', rfl, -⟩ := hedit'.cons_right fun b r m t hsite m' hm => by
          rcases h.mark hsite with rfl | rfl | rfl <;> exact absurd (List.cons.inj hm).1 (by decide)
        exact signed_cons.mpr (Or.inl ⟨w, hw, _, t'', ht', rfl⟩)
      · exact signed_cons.mpr (Or.inr ⟨hc, ih ho⟩)
  | edit hsite _ _ _ ih =>
      refine signed_append (hregion _ _ _ _ hsite) (ih (signed_behind (fun m₂ hm₂ hne => ?_) ho))
      obtain ⟨m₁, hm⟩ := hm₂
      exact h.inMark _ _ _ _ hsite m₁ m₂ hm.symm hne _

/-- What is read of a URL is followed by no signed query. -/
def Unsigned (s : PyStr) : Prop :=
  ∀ l, urlScan anyCase s = some l → ¬ Signed l.rest

/-! ### The passes over queries -/

theorem query_respects : Respects isQueryChar fun _ => QuerySite :=
  querySite_respects rfl

theorem query_region (_ : Option Nat) (r m t : PyStr) (h : QuerySite r m t) :
    ∀ c ∈ r, isQueryChar c = true := by
  obtain ⟨run, rfl, hrun⟩ := h.region
  intro c hc
  rcases List.mem_cons.mp hc with rfl | hc
  · decide
  · exact hrun c hc

theorem redacted_query : ∀ c ∈ redacted, isQueryChar c = true :=
  fun c hc => (redacted_chars c hc).2.2.1

theorem unsigned_of_none {s : PyStr} (h : urlScan anyCase s = none) : Unsigned s := by
  intro l hl
  rw [h] at hl
  contradiction

/-- Edits of queries keep URLs unsigned. -/
theorem unsigned_query (b : Option Nat) (t o : PyStr)
    (hedit : Edited (fun _ => QuerySite) b t o) (ht : Unsigned t) : Unsigned o := by
  intro l hl
  obtain ⟨x, hx, ⟨b', hrest⟩ | ⟨out, hrest, hopen⟩⟩ := literal_anyCase.query_keeps hedit hl
  · exact fun hsigned => ht x hx (query_respects.signed query_region hrest hsigned)
  · rw [hrest]
    exact not_signed_redacted hopen

/-- Edits of queries keep the seals of URLs. -/
theorem sealed_query (b : Option Nat) (t o : PyStr)
    (hedit : Edited (fun _ => QuerySite) b t o) (ht : Sealed (urlScan exactly) isQueryChar t) :
    Sealed (urlScan exactly) isQueryChar o := by
  intro l hl
  obtain ⟨x, hx, ⟨b', hrest⟩ | ⟨out, hrest, hopen⟩⟩ := literal_exactly.query_keeps hedit hl
  · exact query_respects.marked redacted_query hrest (ht x hx)
  · rw [hrest]
    exact marked_redacted redacted_query hopen

/-- **No URL is signed** behind its pass. -/
theorem signedQs_unsigned (b : Option Nat) (s : PyStr) :
    ∀ v, v <:+ signedQs.sub (keeping [1] (63 :: redacted)) b s → Unsigned v := by
  refine pass_places (unsigned_of_none rfl) signedQs_edited unsigned_query
    (fun s hs => unsigned_of_none (literal_anyCase.outside s hs))
    (fun _ _ hnone l hl => signedQs_missed hnone hl) ?_ b s
  intro b s m hm
  obtain ⟨l, hl, -, hrest, -, hkeeping⟩ := signedQs_found hm
  obtain ⟨u, hword, hu⟩ := literal_anyCase.word hl
  have hsite := query_site_rest l.rest
  refine ⟨u, 63 :: redacted, by rw [hkeeping, hword, List.append_assoc]; rfl,
    Or.inr (Or.inl rfl), fun w₁ w₂ hw l' hl' => ?_⟩
  rw [literal_anyCase.reach (fun c hc => hu c (hw ▸ List.mem_append_right w₁ hc)) hl']
  exact not_signed_redacted ((hrest ▸ hsite).behind (signedQs_edited _ _))

/-- **The queries of URLs are sealed** by their pass. -/
theorem anyQs_sealed (b : Option Nat) (s : PyStr) :
    ∀ v, v <:+ anyQs.sub (keeping [1] (63 :: redacted)) b s →
      Sealed (urlScan exactly) isQueryChar v := by
  refine pass_places (Sealed.of_none rfl) anyQs_edited sealed_query
    (fun s hs => Sealed.of_none (literal_exactly.outside s hs)) ?_ ?_ b s
  · intro b s hnone l hl hopen
    rw [anyQs_found.mpr ⟨l, hl, hopen, rfl⟩] at hnone
    contradiction
  · intro b s m hm
    obtain ⟨l, hl, -, rfl⟩ := anyQs_found.mp hm
    obtain ⟨u, hword, hu⟩ := literal_exactly.word hl
    have hsite := query_site_rest l.rest
    refine ⟨u, 63 :: redacted, ?_, Or.inr (Or.inl rfl), fun w₁ w₂ hw l' hl' => ?_⟩
    · rw [← List.nil_append l.groups, keeping_url hl [] rfl, hword, List.append_assoc]
      rfl
    · rw [literal_exactly.reach (fun c hc => hu c (hw ▸ List.mem_append_right w₁ hc)) hl']
      exact marked_redacted redacted_query (hsite.behind (anyQs_edited _ _))

/-! ## Keys with their secrets -/

theorem keypair_query {c : Nat} (h : isKeyChar c = true ∨ c = 58) :
    isQueryChar c = true ∧ isUrlChar c = true := by
  have hquery := credential_of_queryChar (credential_of_keyChar h)
  refine ⟨hquery, ?_⟩
  have hne : c ≠ 63 := by
    rintro rfl
    exact absurd h (by decide)
  simp [isUrlChar, hquery, hne]

/-- URLs are read through the removal of keys. -/
theorem Literal.tracks_keypair {literal : String → List (Nat → Bool)} (hliteral : Literal literal)
    (wide : Nat → Bool) : Scanner.Tracks (KeypairSite wide) (urlScan literal) := by
  have hrespects : Respects isCredential (KeypairSite wide) :=
    keypairSite_respects wide fun _ h => h
  have hmark : ∀ c ∈ keypairMark, isUrlChar c = true := by decide +kernel
  have hpath : Scanner.Tracks (KeypairSite wide) (Scanner.plus isUrlChar) :=
    Scanner.Tracks.plus (fun _ _ _ _ hsite c hc => (keypair_query (hsite.region.chars c hc)).2)
      fun _ _ _ _ hsite => hsite.mark ▸ hmark
  have hquestion : Scanner.Mirrors (KeypairSite wide) (Scanner.one fun c => c == 63) :=
    Scanner.Mirrors.one fun _ _ _ _ hsite => hsite.mark ▸ rfl
  exact ((hliteral.tracks_base hrespects hpath).capture 1).andThen
    (Scanner.Tracks.of_mirrors hquestion)

/-- The removal of keys keeps URLs unsigned. -/
theorem unsigned_keypair (wide : Nat → Bool) (b : Option Nat) (t o : PyStr)
    (hedit : Edited (KeypairSite wide) b t o) (ht : Unsigned t) : Unsigned o := by
  have hrespects : Respects isCredential (KeypairSite wide) :=
    keypairSite_respects wide fun _ h => h
  intro l hl hsigned
  obtain ⟨x, b', hx, hrest⟩ := literal_anyCase.tracks_keypair wide b t o hedit l hl
  exact ht x hx (hrespects.signed
    (fun _ _ _ _ hsite c hc => (keypair_query (hsite.region.chars c hc)).1) hrest hsigned)

/-- A key with its secret that is found in an edited text was there before.  The character in
front may be the end of a mark, when the text behind the mark begins with no word. -/
theorem keypair_before {wide : Nat → Bool} {b b' : Option Nat} {t o : PyStr}
    (hedit : Edited (KeypairSite wide) b t o)
    (hb : b' = b ∨ b'.any (isWord wide) = false ∧ opens (isWord wide) t = false)
    (h : (keypair wide).first b' o ≠ none) : (keypair wide).first b t ≠ none := by
  obtain ⟨m, hm⟩ := Option.ne_none_iff_exists'.mp h
  obtain ⟨r, hr, rfl_o, hbefore, hrest⟩ := keypair_found hm
  have hne : r ≠ [] := List.ne_nil_of_length_pos (by have := hr.length; omega)
  rw [rfl_o] at hedit
  obtain ⟨t', rfl, hedit'⟩ := hedit.through_right fun c hc _ _ _ _ hsite m hm => by
    rw [hsite.mark] at hm
    obtain ⟨rfl, -⟩ := List.cons.inj hm
    exact absurd (hr.chars 60 hc) (by decide)
  have hlast : (lastOf b r).any (isWord wide) = true := by
    obtain ⟨a, c, rfl, -, -, hc, hlen⟩ := hr
    exact word_behind hc hlen
  refine keypair_missed hr ?_ ?_
  · rw [rfl_o, opens_append hne] at hbefore
    rw [opens_append hne] at hb ⊢
    rcases hb with rfl | ⟨hb, hopen⟩
    · exact hbefore
    · rw [hb, hopen] at hbefore
      contradiction
  · generalize m.rest = rest at hedit' hrest
    cases hedit' with
    | nil => rfl
    | keep c _ => exact hrest
    | @edit _ region mark t o hsite hregion _ _ =>
        rw [opens_append hregion]
        have hbegins := hsite.before
        rw [hlast] at hbegins
        simpa using hbegins.symm

/-- No key with its secret begins in the mark of one. -/
theorem in_keypairMark {u a : PyStr} (hmark : keypairMark = u ++ a) (hne : a ≠ []) {r t o : PyStr}
    (hr : IsKeypair r) : r ++ t ≠ a ++ o := by
  obtain ⟨w, rest, -, hw, -, hmem, -⟩ := markStart_of_inMark (s := a ++ [])
    (InMark.of_append hmark hne (Or.inr (Or.inr rfl)))
  rw [List.append_nil] at hw
  have hlen := congrArg List.length hmark
  rw [List.length_append] at hlen
  have hmarkLen : keypairMark.length = 18 := rfl
  exact hr.not_prefix (c := 62) (hw ▸ List.mem_append_left rest hmem) (by decide) (by omega)

/-- **No key with its secret is left** by the pass that removes them. -/
theorem keypair_absent (wide : Nat → Bool) (s : PyStr) :
    (keypair wide).Absent ((keypair wide).sub (fun _ => keypairMark) none s) := by
  have hplaces : ∀ b s, ∀ b', (b' = b ∨ b'.any (isWord wide) = false ∧
      opens (isWord wide) s = false) → ∀ u v,
        (keypair wide).sub (fun _ => keypairMark) b s = u ++ v →
          (keypair wide).first (lastOf b' u) v = none := by
    intro b s
    refine Pattern.sub_induction (motive := fun b s o => ∀ b', (b' = b ∨
      b'.any (isWord wide) = false ∧ opens (isWord wide) s = false) → ∀ u v, o = u ++ v →
        (keypair wide).first (lastOf b' u) v = none) ?_ ?_ ?_ b s
    · intro b b' _ u v huv
      obtain ⟨rfl, rfl⟩ := List.append_eq_nil_iff.mp huv.symm
      by_contra h
      obtain ⟨m, hm⟩ := Option.ne_none_iff_exists'.mp h
      obtain ⟨r, hr, hs, -⟩ := keypair_found hm
      obtain ⟨rfl, -⟩ := List.append_eq_nil_iff.mp hs.symm
      have := hr.length
      simp at this
    · intro b c s hnone ih b' hb u v huv
      cases u with
      | nil =>
          rw [List.nil_append] at huv
          by_contra h
          rw [← huv] at h
          have hedit : Edited (KeypairSite wide) b (c :: s) _ :=
            Edited.keep c (keypair_edited wide (some c) s)
          exact keypair_before hedit hb h hnone
      | cons d u =>
          obtain ⟨rfl, hbehind⟩ := List.cons.inj huv
          exact ih (some c) (Or.inl rfl) u v hbehind
    · intro b s m hm ih b' _ u v huv
      obtain ⟨r, hr, hs, -, hrest⟩ := keypair_found hm
      rcases List.append_eq_append_iff.mp huv.symm with ⟨a, hmark, hv⟩ | ⟨a, hu, hout⟩
      · by_cases hne : a = []
        · subst hne
          rw [List.append_nil] at hmark
          rw [List.nil_append] at hv
          rw [← hmark]
          exact ih (some 62) (Or.inr ⟨rfl, hrest⟩) [] v hv.symm
        · by_contra h
          obtain ⟨m', hm'⟩ := Option.ne_none_iff_exists'.mp h
          obtain ⟨r', hr', hs', -⟩ := keypair_found hm'
          rw [hv] at hs'
          exact in_keypairMark hmark hne hr' hs'.symm
      · rw [hu, lastOf_append]
        exact ih (some 62) (Or.inr ⟨rfl, hrest⟩) a v hout
  exact fun u v huv => hplaces none s none (Or.inl rfl) u v huv

/-! ## References -/

/-- A digit in hexadecimal. -/
def isHex (c : Nat) : Bool :=
  decide (48 ≤ c ∧ c ≤ 57 ∨ 97 ≤ c ∧ c ≤ 102)

theorem hexByte_hex (b : UInt8) : ∀ c ∈ hexByte b, isHex c = true := by
  have hb := b.toNat_lt
  intro c hc
  obtain ⟨d, hd, rfl⟩ := List.mem_map.mp hc
  have hlt : d < 16 := by
    rcases List.mem_cons.mp hd with rfl | hd
    · omega
    · rw [List.mem_singleton.mp hd]
      omega
  by_cases h10 : d < 10
  · rw [if_pos h10]
    simp only [isHex, decide_eq_true_eq]
    omega
  · rw [if_neg h10]
    simp only [isHex, decide_eq_true_eq]
    omega

/-- A pseudonym is made of digits behind its scheme, at least one. -/
theorem plusAlias_word {env : Env} (hlen : ∀ k m, (env.hmac k m).length = 32) (key : Bytes)
    (id : PyStr) : ∃ d digits, plusAlias env key id = py "plus:" ++ d :: digits ∧
      ∀ c ∈ d :: digits, isHex c = true := by
  have hmem : ∀ c ∈ ((env.hmac key ((utf8Encode id).toOption.getD [])).flatMap hexByte).take 12,
      isHex c = true := by
    intro c hc
    obtain ⟨b, -, hb⟩ := List.mem_flatMap.mp (List.mem_of_mem_take hc)
    exact hexByte_hex b c hb
  have hne : ((env.hmac key ((utf8Encode id).toOption.getD [])).flatMap hexByte).take 12 ≠ [] := by
    have hbytes := hlen key ((utf8Encode id).toOption.getD [])
    have hpos : env.hmac key ((utf8Encode id).toOption.getD []) ≠ [] := by
      intro hnil
      rw [hnil] at hbytes
      contradiction
    obtain ⟨b, bs, hdigest⟩ := List.exists_cons_of_ne_nil hpos
    rw [hdigest]
    simp [hexByte]
  obtain ⟨d, digits, hword⟩ := List.exists_cons_of_ne_nil hne
  exact ⟨d, digits, congrArg (py "plus:" ++ ·) hword, hword ▸ hmem⟩

/-- A reference becomes a pseudonym.  Both begin with the same letter. -/
structure AliasSite (r m : PyStr) : Prop where
  region : ∃ run, r = 112 :: run
  mark : ∃ d digits, m = py "plus:" ++ d :: digits ∧ ∀ c ∈ d :: digits, isHex c = true

theorem plusRef_edited {env : Env} (hlen : ∀ k m, (env.hmac k m).length = 32) (key : Bytes)
    (b : Option Nat) (s : PyStr) : Edited (fun _ r m _ => AliasSite r m) b s
      (plusRef.sub (fun m => plusAlias env key (m.group 1)) b s) := by
  refine Pattern.sub_edited (fun b s m hm => ?_) b s
  obtain ⟨w, hw, hs, -⟩ := Pattern.first_word hm
  obtain ⟨t, ht⟩ := plusRef_found hm
  obtain ⟨d, digits, halias, hhex⟩ := plusAlias_word hlen key (m.group 1)
  refine ⟨[], w, plusAlias env key (m.group 1), hs, rfl, hw, ?_, ⟨?_, d, digits, halias, hhex⟩⟩
  · rw [halias]
    exact List.cons_ne_nil _ _
  · obtain ⟨c, w, rfl⟩ := List.exists_cons_of_ne_nil hw
    rw [hs] at ht
    exact ⟨w, by rw [(List.cons.inj ht).1]⟩

theorem plus_refuses {c : Nat} (hc : c ≠ 112) (t : PyStr) : plusScan (c :: t) = none :=
  andThen_none (chars_refuses (p := fun c => c == 112) (by simpa using hc) _ t)

theorem plus_outside : Outside plusScan := by
  intro s hs
  rcases hs.cases with ⟨c, t, rfl, hc⟩ | ⟨t, rfl⟩ | ⟨t, rfl⟩ | ⟨t, rfl⟩
  · refine plus_refuses ?_ t
    rintro rfl
    exact absurd hc (by decide)
  · exact plus_refuses (by decide) _
  · exact plus_refuses (by decide) _
  · rfl

theorem plusScan_eq : plusScan = (Scanner.one fun c => c == 112).andThen
    ((Scanner.chars (exactly "lus://")).andThen (Scanner.one isAlnum)) := by
  rw [← Scanner.andThen_assoc]
  rfl

/-- No reference begins in a pseudonym. -/
theorem plus_in_alias {d : Nat} {digits m₁ m₂ : PyStr} (hhex : ∀ c ∈ d :: digits, isHex c = true)
    (hmark : py "plus:" ++ d :: digits = m₁ ++ m₂) (hne : m₂ ≠ []) (o : PyStr) :
    plusScan (m₂ ++ o) = none := by
  cases m₁ with
  | nil =>
      obtain rfl : py "plus:" ++ d :: digits = m₂ := hmark
      have hd : d ≠ 47 := by
        rintro rfl
        exact absurd (hhex 47 List.mem_cons_self) (by decide)
      simp [plusScan, Scanner.chars, exactly, py, Scanner.andThen, Scanner.one, hd]
  | cons c m₁ =>
      obtain ⟨-, hrest⟩ := List.cons.inj hmark
      obtain ⟨e, m₂, rfl⟩ := List.exists_cons_of_ne_nil hne
      refine plus_refuses ?_ (m₂ ++ o)
      rintro rfl
      have hmem : 112 ∈ py "lus:" ++ d :: digits := by
        rw [show py "lus:" ++ d :: digits = m₁ ++ 112 :: m₂ from hrest]
        exact List.mem_append_right _ List.mem_cons_self
      rcases List.mem_append.mp hmem with hmem | hmem
      · exact absurd hmem (by decide)
      · exact absurd (hhex 112 hmem) (by decide)

/-- A scanner refuses a text. -/
def Refused (σ : Scanner Nat) (s : PyStr) : Prop :=
  σ s = none

/-- **No reference is left** by its pass. -/
theorem plusRef_refused {env : Env} (hlen : ∀ k m, (env.hmac k m).length = 32) (key : Bytes)
    (b : Option Nat) (s : PyStr) : ∀ v,
      v <:+ plusRef.sub (fun m => plusAlias env key (m.group 1)) b s → Refused plusScan v := by
  have hnil : Refused plusScan [] := rfl
  refine Pattern.sub_places hnil ?_ ?_ b s
  · intro b c s hnone
    rw [plusRef_first_eq_none] at hnone
    have hedit := plusRef_edited hlen key (some c) s
    by_contra h
    obtain ⟨y, hy⟩ := Option.ne_none_iff_exists'.mp h
    rw [plusScan_eq] at hy hnone
    obtain ⟨x, hx, z, hz, -⟩ := Scanner.andThen_eq_some.mp hy
    obtain ⟨e, out, hout, he, rfl⟩ := Scanner.one_eq_some.mp hx
    obtain ⟨rfl, rfl⟩ := List.cons.inj hout
    obtain ⟨w, hw, u, hu, -⟩ := Scanner.andThen_eq_some.mp hz
    obtain ⟨e, rest, hrest, halnum, -⟩ := Scanner.one_eq_some.mp hu
    have hletters : ∀ q ∈ exactly "lus://", q 112 = false := by decide
    have hmirrors : Scanner.Mirrors (fun _ r m _ => AliasSite r m)
        (Scanner.chars (exactly "lus://")) := by
      refine Scanner.Mirrors.chars fun q hq _ _ mark _ hsite => ?_
      obtain ⟨d, digits, rfl, -⟩ := hsite.mark
      exact hletters q hq
    obtain ⟨t', ht', hedit'⟩ := hmirrors _ _ _ hedit w hw
    rw [hrest] at hedit'
    have hgo : opens isAlnum t' = true := by
      generalize hedited : e :: rest = edited at hedit'
      cases hedit' with
      | nil => contradiction
      | keep d _ =>
          obtain ⟨rfl, -⟩ := List.cons.inj hedited
          exact halnum
      | edit hsite _ _ _ =>
          obtain ⟨run, rfl⟩ := hsite.region
          rfl
    obtain ⟨d, t', rfl⟩ := List.exists_cons_of_ne_nil (l := t') (by
      rintro rfl
      contradiction)
    have hd : isAlnum d = true := hgo
    have hfirst : Scanner.one (fun c => c == 112) (c :: s) = some ⟨[c], [], s⟩ :=
      Scanner.one_eq_some.mpr ⟨c, s, rfl, he, rfl⟩
    have hlast : Scanner.one isAlnum (d :: t') = some ⟨[d], [], t'⟩ :=
      Scanner.one_eq_some.mpr ⟨d, t', rfl, hd, rfl⟩
    have hfound := Scanner.andThen_eq_some.mpr ⟨_, hfirst, _,
      Scanner.andThen_eq_some.mpr ⟨_, ht', _, hlast, rfl⟩, rfl⟩
    rw [hnone] at hfound
    contradiction
  · intro b s m _ v₁ v₂ hf hne
    obtain ⟨d, digits, halias, hhex⟩ := plusAlias_word hlen key (m.group 1)
    exact plus_in_alias hhex (halias.symm.trans hf) hne _

/-! ## Sanitized text -/

theorem sanitizeText_passes (env : Env) (key : Bytes) (text : PyStr) : sanitizeText env key text =
    (keypair env.wideWord).sub (fun _ => keypairMark) none
      (anyQs.sub (keeping [1] (63 :: redacted)) none
        (signedQs.sub (keeping [1] (63 :: redacted)) none
          (tokenField.sub (keeping [1, 2, 3, 4, 5] redacted) none
            (bearer.sub (keeping [1] redacted) none
              (plusRef.sub (fun m => plusAlias env key (m.group 1)) none text))))) :=
  rfl

/-- What every place of a text refuses, or has sealed. -/
structure Places (s : PyStr) : Prop where
  reference : ∀ v, v <:+ s → Refused plusScan v
  header : ∀ v, v <:+ s → Sealed leadScan isCredential v
  field : ∀ v, v <:+ s → Sealed fieldScan isTokenChar v
  signed : ∀ v, v <:+ s → Unsigned v
  query : ∀ v, v <:+ s → Sealed (urlScan exactly) isQueryChar v

section Kept

variable {site : Sites Nat} {b : Option Nat} {t o : PyStr}

theorem reference_kept {p : Nat → Bool} (h : Respects p site) (hedit : Edited site b t o)
    (ht : ∀ v, v <:+ t → Refused plusScan v) : ∀ v, v <:+ o → Refused plusScan v := by
  have hnil : Refused plusScan [] := rfl
  exact h.everywhere hnil (fun _ _ _ => (Scanner.Tracks.of_mirrors h.mirrors_plus).refuses)
    plus_outside hedit ht

theorem header_kept (h : Respects isCredential site) (hscheme : SchemeKept site)
    (hedit : Edited site b t o) (ht : ∀ v, v <:+ t → Sealed leadScan isCredential v) :
    ∀ v, v <:+ o → Sealed leadScan isCredential v :=
  h.everywhere (Sealed.of_none rfl) (fun _ _ _ => h.keeps_lead hscheme)
    (fun s hs => Sealed.of_none (andThen_none (header_outside s hs))) hedit ht

theorem field_kept (h : Respects isTokenChar site) (hedit : Edited site b t o)
    (ht : ∀ v, v <:+ t → Sealed fieldScan isTokenChar v) :
    ∀ v, v <:+ o → Sealed fieldScan isTokenChar v :=
  h.everywhere (Sealed.of_none rfl)
    (fun _ _ _ => Sealed.keep (Scanner.Tracks.of_mirrors h.mirrors_field) h
      fun c hc => (redacted_chars c hc).2.1)
    (fun s hs => Sealed.of_none (field_outside s hs)) hedit ht

end Kept

theorem signed_kept {p : Nat → Bool} {site : Sites Nat} (h : Respects p site)
    (hkeep : ∀ b t o, Edited site b t o → Unsigned t → Unsigned o) {b : Option Nat} {t o : PyStr}
    (hedit : Edited site b t o) (ht : ∀ v, v <:+ t → Unsigned v) : ∀ v, v <:+ o → Unsigned v :=
  h.everywhere (unsigned_of_none rfl) hkeep
    (fun s hs => unsigned_of_none (literal_anyCase.outside s hs)) hedit ht

/-- **Every place of sanitized text** refuses what the passes look for, or has it sealed. -/
theorem sanitizeText_places {env : Env} (hlen : ∀ k m, (env.hmac k m).length = 32) (key : Bytes)
    (text : PyStr) : Places (sanitizeText env key text) := by
  have hrun : Respects isCredential (RunSite isCredential) :=
    runSite_respects (fun _ h => h) credential_facts
  have htoken : Respects isCredential (RunSite isTokenChar) :=
    runSite_respects (fun _ => tokenChar_of_credential) tokenChar_facts
  have hquery : Respects isCredential fun _ => QuerySite := querySite_respects rfl
  have hqueryToken : Respects isTokenChar fun _ => QuerySite := querySite_respects rfl
  have hpair : Respects isCredential (KeypairSite env.wideWord) :=
    keypairSite_respects env.wideWord fun _ h => h
  have hpairToken : Respects isTokenChar (KeypairSite env.wideWord) :=
    keypairSite_respects env.wideWord fun _ => tokenChar_of_credential
  have hpairQuery : Respects isQueryChar (KeypairSite env.wideWord) :=
    keypairSite_respects env.wideWord fun _ => credential_of_queryChar
  have hscheme : SchemeKept fun _ => QuerySite :=
    scheme_through fun _ _ _ _ hsite => Or.inl (hsite.region.imp fun _ h => h.1)
  have hpairScheme : SchemeKept (KeypairSite env.wideWord) :=
    scheme_through fun _ _ _ _ hsite => Or.inr hsite.region
  rw [sanitizeText_passes]
  -- each pass seals what it looks for, and keeps what the passes before it have sealed
  have hplus₁ := plusRef_refused hlen key none text
  generalize plusRef.sub _ none text = s₁ at hplus₁ ⊢
  have hplus₂ := reference_kept hrun (bearer_edited none s₁) hplus₁
  have hlead₂ := bearer_sealed none s₁
  generalize bearer.sub _ none s₁ = s₂ at hplus₂ hlead₂ ⊢
  have hedit₃ := tokenField_edited none s₂
  have hplus₃ := reference_kept htoken hedit₃ hplus₂
  have hlead₃ := header_kept htoken
    (runSite_scheme (fun _ => tokenChar_of_credential) tokenChar_facts) hedit₃ hlead₂
  have hfield₃ := tokenField_sealed none s₂
  generalize tokenField.sub _ none s₂ = s₃ at hplus₃ hlead₃ hfield₃ ⊢
  have hedit₄ := signedQs_edited none s₃
  have hplus₄ := reference_kept hquery hedit₄ hplus₃
  have hlead₄ := header_kept hquery hscheme hedit₄ hlead₃
  have hfield₄ := field_kept hqueryToken hedit₄ hfield₃
  have hsigned₄ := signedQs_unsigned none s₃
  generalize signedQs.sub _ none s₃ = s₄ at hplus₄ hlead₄ hfield₄ hsigned₄ ⊢
  have hedit₅ := anyQs_edited none s₄
  have hplus₅ := reference_kept hquery hedit₅ hplus₄
  have hlead₅ := header_kept hquery hscheme hedit₅ hlead₄
  have hfield₅ := field_kept hqueryToken hedit₅ hfield₄
  have hsigned₅ := signed_kept hquery unsigned_query hedit₅ hsigned₄
  have hany₅ := anyQs_sealed none s₄
  generalize anyQs.sub _ none s₄ = s₅ at hplus₅ hlead₅ hfield₅ hsigned₅ hany₅ ⊢
  have hedit₆ := keypair_edited env.wideWord none s₅
  exact
    { reference := reference_kept hpair hedit₆ hplus₅
      header := header_kept hpair hpairScheme hedit₆ hlead₅
      field := field_kept hpairToken hedit₆ hfield₅
      signed := signed_kept hpair (unsigned_keypair env.wideWord) hedit₆ hsigned₅
      query := hpairQuery.everywhere (Sealed.of_none rfl)
        (fun _ _ _ => Sealed.keep (literal_exactly.tracks_keypair env.wideWord) hpairQuery
          redacted_query)
        (fun s hs => Sealed.of_none (literal_exactly.outside s hs)) hedit₆ hany₅ }

/-- **What the patterns find in a text** is what sanitizing writes: no reference, no signed
query and no key with its secret, and no credential, token or query but the mark. -/
structure Clean (wideWord : Nat → Bool) (s : PyStr) : Prop where
  reference : plusRef.Absent s
  header : bearer.Settled (keeping [1] redacted) s
  field : tokenField.Settled (keeping [1, 2, 3, 4, 5] redacted) s
  signed : signedQs.Absent s
  query : anyQs.Settled (keeping [1] (63 :: redacted)) s
  keypair : (keypair wideWord).Absent s

/-- **Sanitized text is clean.** -/
theorem sanitizeText_clean {env : Env} (hlen : ∀ k m, (env.hmac k m).length = 32) (key : Bytes)
    (text : PyStr) : Clean env.wideWord (sanitizeText env key text) := by
  have hplaces := sanitizeText_places hlen key text
  exact
    { reference := fun u v hs => plusRef_first_eq_none.mpr (hplaces.reference v ⟨u, hs.symm⟩)
      header := by
        intro u v hs m hm
        obtain ⟨l, hl, hopen, rfl⟩ := bearer_found.mp hm
        rw [keeping_header, ← hplaces.header v ⟨u, hs.symm⟩ l hl hopen, List.append_assoc,
          List.takeWhile_append_dropWhile]
        exact (lead_splits v l hl).symm
      field := by
        intro u v hs m hm
        obtain ⟨l, hl, hopen, rfl⟩ := tokenField_found.mp hm
        rw [keeping_field hl, ← hplaces.field v ⟨u, hs.symm⟩ l hl hopen, List.append_assoc,
          List.takeWhile_append_dropWhile]
        exact (field_commits.splits v l hl).symm
      signed := by
        intro u v hs
        by_contra h
        obtain ⟨m, hm⟩ := Option.ne_none_iff_exists'.mp h
        obtain ⟨l, hl, hsigned, -⟩ := signedQs_found hm
        exact hplaces.signed v ⟨u, hs.symm⟩ l hl hsigned
      query := by
        intro u v hs m hm
        obtain ⟨l, hl, hopen, rfl⟩ := anyQs_found.mp hm
        rw [← List.nil_append l.groups, keeping_url hl [] rfl,
          ← hplaces.query v ⟨u, hs.symm⟩ l hl hopen, List.append_assoc,
          List.takeWhile_append_dropWhile]
        exact (url_splits exactly v l hl).symm
      keypair := keypair_absent env.wideWord _ }

/-- The interpreter's answers for the reference {lit}`plus://abc` and a key of zeros. -/
def abcEnv : Env where
  hmac _ _ :=
    [18, 1, 79, 193, 157, 77, 120, 244, 195, 22, 242, 90, 83, 73, 122, 71,
      187, 104, 34, 82, 119, 255, 139, 85, 248, 112, 201, 178, 106, 23, 3, 234]
  wideWord _ := true

theorem abcEnv_length (k m : Bytes) : (abcEnv.hmac k m).length = 32 :=
  rfl

/-- A text with a reference, a credential and a signed query. -/
def leakyText : PyStr :=
  py "plus://abc Authorization: Bearer s3cr3t https://h/x?sig=1"

theorem sanitizeText_clean_leaky : Clean abcEnv.wideWord
      (sanitizeText abcEnv (List.replicate 32 48) leakyText) ∧
    sanitizeText abcEnv (List.replicate 32 48) leakyText =
      py "plus:12014fc19d4d Authorization: Bearer <redacted> https://h/x?<redacted>" :=
  ⟨sanitizeText_clean abcEnv_length _ _, by decide +kernel⟩

/-- A clean text is not changed. -/
theorem Clean.unchanged {env : Env} {s : PyStr} (h : Clean env.wideWord s) (key : Bytes) :
    sanitizeText env key s = s := by
  rw [sanitizeText_passes, Pattern.sub_eq_self h.reference.settled, Pattern.sub_eq_self h.header,
    Pattern.sub_eq_self h.field, Pattern.sub_eq_self h.signed.settled,
    Pattern.sub_eq_self h.query]
  exact Pattern.sub_eq_self h.keypair.settled

mutual

/-- **Sanitizing twice changes nothing.** -/
theorem sanitizeObj_idempotent {env : Env} (hlen : ∀ k m, (env.hmac k m).length = 32)
    (key : Bytes) : (j : Json) →
      sanitizeObj env key (sanitizeObj env key j) = sanitizeObj env key j
  | .null | .bool _ | .int _ | .float _ => rfl
  | .str s => congrArg Json.str ((sanitizeText_clean hlen key s).unchanged key)
  | .arr items => congrArg Json.arr (sanitizeItems_idempotent hlen key items)
  | .obj fields => congrArg Json.obj (sanitizeFields_idempotent hlen key fields)

theorem sanitizeItems_idempotent {env : Env} (hlen : ∀ k m, (env.hmac k m).length = 32)
    (key : Bytes) : (items : List Json) →
      sanitizeItems env key (sanitizeItems env key items) = sanitizeItems env key items
  | [] => rfl
  | j :: rest => congrArg₂ List.cons (sanitizeObj_idempotent hlen key j)
      (sanitizeItems_idempotent hlen key rest)

theorem sanitizeFields_idempotent {env : Env} (hlen : ∀ k m, (env.hmac k m).length = 32)
    (key : Bytes) : (fields : List (PyStr × Json)) →
      sanitizeFields env key (sanitizeFields env key fields) = sanitizeFields env key fields
  | [] => rfl
  | (k, j) :: rest => congrArg₂ List.cons (congrArg (k, ·) (sanitizeObj_idempotent hlen key j))
      (sanitizeFields_idempotent hlen key rest)

end

theorem sanitizeObj_idempotent_leaky :
    sanitizeObj abcEnv (List.replicate 32 48)
        (sanitizeObj abcEnv (List.replicate 32 48) (.obj [(py "log", .arr [.str leakyText])])) =
      sanitizeObj abcEnv (List.replicate 32 48) (.obj [(py "log", .arr [.str leakyText])]) :=
  sanitizeObj_idempotent abcEnv_length _ _

end Redact
end FrigateXdna
