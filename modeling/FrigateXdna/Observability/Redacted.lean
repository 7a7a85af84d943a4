import FrigateXdna.Library.Edits
import FrigateXdna.Observability.Redact

/-!
# What redaction writes

Each pass of the redaction edits its text: it replaces regions by marks and keeps the rest.  No
header, token field or URL begins in a mark, and an edit that follows leaves alone what an
earlier one has marked.

Main results:

- Theorem {lit}`header_outside`, {lit}`field_outside`, {lit}`url_outside`: nothing begins in a
  mark.
- Theorem {lit}`Respects.marked`: marked runs stay marked.
- Theorem {lit}`bearer_edited`, {lit}`tokenField_edited`, {lit}`signedQs_edited`,
  {lit}`anyQs_edited`, {lit}`keypair_edited`: what each pass replaces.
-/

namespace FrigateXdna
namespace Redact

open Python Library

/-! ## Marks -/

/-- The mark of a key with its secret. -/
def keypairMark : PyStr :=
  py "<redacted-keypair>"

/-- What begins at some place of a mark, and goes on with anything. -/
def InMark (s : PyStr) : Prop :=
  ∃ m o, m ≠ [] ∧ s = m ++ o ∧ (m <:+ 63 :: redacted ∨ m <:+ keypairMark)

/-- A scanner that refuses to begin in a mark. -/
def Outside (σ : Scanner Nat) : Prop :=
  ∀ s, InMark s → σ s = none

theorem InMark.of_append {mark m₁ m₂ o : PyStr} (hmark : mark = m₁ ++ m₂) (hne : m₂ ≠ [])
    (hknown : mark = redacted ∨ mark = 63 :: redacted ∨ mark = keypairMark) :
    InMark (m₂ ++ o) := by
  refine ⟨m₂, o, hne, rfl, ?_⟩
  have hsuffix : m₂ <:+ mark := ⟨m₁, hmark.symm⟩
  rcases hknown with rfl | rfl | rfl
  · exact Or.inl (hsuffix.trans (List.suffix_cons 63 redacted))
  · exact Or.inl hsuffix
  · exact Or.inr hsuffix

/-- A character that none of the other patterns begins with. -/
def isPlainStart (c : Nat) : Bool :=
  foldCase c != 97 && foldCase c != 104 && foldCase c != 112 && foldCase c != 115 && !isQuote c

/-- How a place of a mark begins: never as a header, a token field, a URL or a reference. -/
def markStart (s : PyStr) : Bool :=
  opens isPlainStart s || (py "ai").isPrefixOf s || (py "act").isPrefixOf s ||
    (py "pa").isPrefixOf s

theorem markStart_of_inMark {s : PyStr} (h : InMark s) : ∃ m o, m ≠ [] ∧ s = m ++ o ∧
    markStart m = true ∧ 62 ∈ m ∧ 61 ∉ m ∧ 58 ∉ m := by
  obtain ⟨m, o, hne, rfl, hm⟩ := h
  have hall : ∀ mark ∈ [63 :: redacted, keypairMark], ∀ k < mark.length,
      markStart (mark.drop k) = true ∧ 62 ∈ mark.drop k ∧ 61 ∉ mark.drop k ∧
        58 ∉ mark.drop k := by
    decide +kernel
  have hdrop : ∀ {mark : PyStr}, mark ∈ [63 :: redacted, keypairMark] → m <:+ mark →
      markStart m = true ∧ 62 ∈ m ∧ 61 ∉ m ∧ 58 ∉ m := by
    intro mark hmark hm
    rw [List.suffix_iff_eq_drop] at hm
    have hlen : mark.length - m.length < mark.length := by
      by_contra hge
      rw [List.drop_eq_nil_of_le (by omega)] at hm
      exact hne hm
    rw [hm]
    exact hall mark hmark _ hlen
  refine ⟨m, o, hne, rfl, ?_⟩
  rcases hm with hm | hm
  · exact hdrop List.mem_cons_self hm
  · exact hdrop (List.mem_cons_of_mem _ List.mem_cons_self) hm

/-- The first characters of a place in a mark. -/
theorem InMark.cases {s : PyStr} (h : InMark s) :
    (∃ c t, s = c :: t ∧ isPlainStart c = true) ∨ (∃ t, s = py "ai" ++ t) ∨
      (∃ t, s = py "act" ++ t) ∨ ∃ t, s = py "pa" ++ t := by
  obtain ⟨m, o, hne, rfl, hstart, -⟩ := markStart_of_inMark h
  simp only [markStart, Bool.or_eq_true, List.isPrefixOf_iff_prefix] at hstart
  rcases hstart with ((hplain | ⟨t, rfl⟩) | ⟨t, rfl⟩) | ⟨t, rfl⟩
  · cases m with
    | nil => contradiction
    | cons c m => exact Or.inl ⟨c, m ++ o, rfl, hplain⟩
  · exact Or.inr (Or.inl ⟨t ++ o, List.append_assoc ..⟩)
  · exact Or.inr (Or.inr (Or.inl ⟨t ++ o, List.append_assoc ..⟩))
  · exact Or.inr (Or.inr (Or.inr ⟨t ++ o, List.append_assoc ..⟩))

theorem isPlainStart_iff {c : Nat} : isPlainStart c = true ↔ foldCase c ≠ 97 ∧
    foldCase c ≠ 104 ∧ foldCase c ≠ 112 ∧ foldCase c ≠ 115 ∧ isQuote c = false := by
  simp [isPlainStart, and_assoc]

/-- A scanner of a word refuses another first character. -/
theorem chars_refuses {p : Nat → Bool} {c : Nat} (h : p c = false) (ps : List (Nat → Bool))
    (t : PyStr) : Scanner.chars (p :: ps) (c :: t) = none := by
  change Scanner.andThen _ _ _ = none
  exact andThen_none (by simp [Scanner.one, h])

theorem name_refuses {c : Nat} (ha : foldCase c ≠ 97) (hs : foldCase c ≠ 115) (t : PyStr) :
    nameScan (c :: t) = none := by
  have hword : ∀ {l : Nat} (ls : List (Nat → Bool)), foldCase c ≠ l →
      Scanner.chars ((fun c => foldCase c == l) :: ls) (c :: t) = none :=
    fun ls hl => chars_refuses (by simpa using hl) ls t
  have haccess : dashedScan "access" "token" (c :: t) = none := andThen_none (hword _ ha)
  have hapi : dashedScan "api" "key" (c :: t) = none := andThen_none (hword _ ha)
  have hsecret : Scanner.chars (anyCase "secret") (c :: t) = none := hword _ hs
  have hsigned : dashedScan "signed" "url" (c :: t) = none := andThen_none (hword _ hs)
  simp only [nameScan, Scanner.orElse, haccess, hapi, hsecret, hsigned, Option.or_none]

theorem header_outside : Outside headerScan := by
  intro s hs
  rcases hs.cases with ⟨c, t, rfl, hc⟩ | ⟨t, rfl⟩ | ⟨t, rfl⟩ | ⟨t, rfl⟩
  · have hfirst := (isPlainStart_iff.mp hc).1
    exact andThen_none
      (chars_refuses (p := fun c => foldCase c == 97) (by simpa using hfirst) _ t)
  · rfl
  · rfl
  · rfl

theorem field_outside : Outside fieldScan := by
  intro s hs
  rcases hs.cases with ⟨c, t, rfl, hc⟩ | ⟨t, rfl⟩ | ⟨t, rfl⟩ | ⟨t, rfl⟩
  · obtain ⟨ha, -, -, hs, hquote⟩ := isPlainStart_iff.mp hc
    have hnone : quoteScan (c :: t) = some ⟨[], [], c :: t⟩ := by
      rw [quoteScan_eq, opens_cons, hquote]
      rfl
    simp only [fieldScan, Scanner.andThen, Scanner.capture, hnone, name_refuses ha hs,
      Option.map_some, Option.bind_some, Option.map_none, Option.bind_none]
  · rfl
  · rfl
  · rfl

theorem url_outside {literal : String → List (Nat → Bool)} {h : Nat → Bool}
    {ttp : List (Nat → Bool)} (hliteral : literal "http" = h :: ttp)
    (hfold : ∀ c, h c = true → foldCase c = 104) : Outside (urlScan literal) := by
  intro s hs
  have hrefused : ∀ c t, foldCase c ≠ 104 → urlScan literal (c :: t) = none := by
    intro c t hc
    have hfirst : h c = false := by
      by_contra hne
      exact hc (hfold c (by simpa using hne))
    simp [urlScan, Scanner.capture, Scanner.andThen, hliteral, Scanner.chars, Scanner.one, hfirst]
  rcases hs.cases with ⟨c, t, rfl, hc⟩ | ⟨t, rfl⟩ | ⟨t, rfl⟩ | ⟨t, rfl⟩
  · exact hrefused c t (isPlainStart_iff.mp hc).2.1
  · exact hrefused 97 _ (by decide)
  · exact hrefused 97 _ (by decide)
  · exact hrefused 112 _ (by decide)

/-! ## Edits that respect what was marked -/

/-- Sites whose edits leave marked runs of a class alone.  They write known marks, no region
begins with white space or a quote or inside a mark, and where a region begins there was no
mark, or the same mark is written. -/
structure Respects (p : Nat → Bool) (site : Sites Nat) : Prop where
  mark : ∀ {b r m t}, site b r m t → m = redacted ∨ m = 63 :: redacted ∨ m = keypairMark
  region : ∀ {b r m t}, site b r m t → opens isSpace r = false ∧ opens isQuote r = false
  inside : ∀ {b u v rest}, redacted = u ++ v → u ≠ [] → opens p rest = false →
    ∀ r m t, r ++ t = v ++ rest → r ≠ [] → ¬ site (lastOf b u) r m t
  tail : ∀ {b r m t}, site b r m t →
    (m = redacted ∧ ∀ o, Edited site (lastOf b r) t o → opens p o = false) ∨
      ∃ c r', r = c :: r' ∧ p c = true ∧ c ≠ 60

/-- A text whose run of a class, if it begins with one, is the mark. -/
def Marked (p : Nat → Bool) (s : PyStr) : Prop :=
  opens p s = true → s.takeWhile p = redacted

namespace Respects

variable {p q : Nat → Bool} {site : Sites Nat} {b : Option Nat} {t o : PyStr}

/-- No mark begins with a character of a class without the two that marks begin with. -/
theorem mark_opens (h : Respects p site) (hq : q 60 = false ∧ q 63 = false) :
    ∀ b r m t, site b r m t → opens q m = false := by
  intro b r m t hsite
  rcases h.mark hsite with rfl | rfl | rfl
  · exact hq.1
  · exact hq.2
  · exact hq.1

theorem inMark (h : Respects p site) : ∀ b r m t, site b r m t → ∀ m₁ m₂, m = m₁ ++ m₂ →
    m₂ ≠ [] → ∀ o, InMark (m₂ ++ o) :=
  fun _ _ _ _ hsite _ _ hm hne _ => InMark.of_append hm hne (h.mark hsite)

/-- What ends behind a mark does so when it is edited. -/
theorem opens_behind (h : Respects p site) (ht : opens p t = false)
    (hedit : Edited site (lastOf b redacted) t o) : opens p o = false := by
  cases t with
  | nil =>
      rw [hedit.nil_left]
      rfl
  | cons c t =>
      obtain ⟨o', rfl, -⟩ := hedit.cons_left fun r m t' heq hne =>
        h.inside (u := redacted) (v := []) (List.append_nil _).symm (by decide) ht r m t' heq hne
      exact ht

/-- A mark and what ends behind it. -/
theorem takeWhile_mark (hmark : ∀ c ∈ redacted, p c = true) (ho : opens p o = false) :
    (redacted ++ o).takeWhile p = redacted := by
  rw [List.takeWhile_append_of_pos hmark]
  cases o with
  | nil => simp
  | cons c o =>
      have hc : p c = false := ho
      simp [hc]

/-- **A marked run stays marked.** -/
theorem marked (h : Respects p site) (hmark : ∀ c ∈ redacted, p c = true)
    (hedit : Edited site b t o) (ht : Marked p t) : Marked p o := by
  intro ho
  cases hedit with
  | nil => contradiction
  | @edit _ r m t' o' hsite hr hm h' =>
      rcases h.tail hsite with ⟨rfl, hopens⟩ | ⟨c, r', rfl, hc, hne⟩
      · exact takeWhile_mark hmark (hopens o' h')
      · have hred := ht hc
        rw [List.cons_append, List.takeWhile_cons_of_pos hc] at hred
        exact absurd (List.cons.inj hred).1 hne
  | @keep _ c t' o' h' =>
      have hred := ht ho
      have hsplit := List.takeWhile_append_dropWhile (p := p) (l := c :: t')
      have hrest : opens p ((c :: t').dropWhile p) = false := opens_dropWhile p _
      rw [hred] at hsplit
      obtain ⟨rfl, ht'⟩ : c = 60 ∧ t' = py "redacted>" ++ (c :: t').dropWhile p := by
        have := List.cons.inj hsplit.symm
        exact ⟨this.1, this.2⟩
      rw [ht'] at h'
      obtain ⟨out, rfl, hout⟩ := Edited.through (fun w₁ w₂ hw hne r m t hr hrne =>
        h.inside (b := b) (u := 60 :: w₁) (v := w₂) (by rw [List.cons_append, ← hw]; rfl)
          (List.cons_ne_nil _ _) hrest r m t hr hrne) h'
      exact takeWhile_mark (o := out) hmark (h.opens_behind (b := b) hrest hout)

end Respects

/-! ## The sites of each pass -/

/-- A run of a class becomes the mark.  In front of it there is a separator, white space or a
quote. -/
structure RunSite (p : Nat → Bool) (b : Option Nat) (r m t : PyStr) : Prop where
  before : ∃ c, b = some c ∧ (isSep c = true ∨ isSpace c = true ∨ isQuote c = true)
  region : ∀ c ∈ r, p c = true
  nonempty : r ≠ []
  mark : m = redacted
  rest : opens p t = false

/-- A query, with its question mark, becomes the mark. -/
structure QuerySite (r m t : PyStr) : Prop where
  region : ∃ run, r = 63 :: run ∧ ∀ c ∈ run, isQueryChar c = true
  mark : m = 63 :: redacted
  rest : opens isQueryChar t = false

/-- A key with its secret becomes a mark.  It is between a word and no word at either end. -/
structure KeypairSite (wide : Nat → Bool) (b : Option Nat) (r m t : PyStr) : Prop where
  region : IsKeypair r
  mark : m = keypairMark
  before : b.any (isWord wide) ≠ opens (isWord wide) r
  rest : opens (isWord wide) t = false

theorem redacted_chars : ∀ c ∈ redacted, isCredential c = true ∧ isTokenChar c = true ∧
    isQueryChar c = true ∧ isSep c = false ∧ isSpace c = false ∧ isQuote c = false := by
  decide +kernel

theorem credential_of_queryChar {c : Nat} (h : isCredential c = true) : isQueryChar c = true := by
  simp only [isCredential, isQueryChar, Bool.not_eq_true', Bool.or_eq_false_iff] at h ⊢
  exact h.1

theorem tokenChar_of_credential {c : Nat} (h : isCredential c = true) : isTokenChar c = true := by
  simp only [isCredential, isTokenChar, Bool.not_eq_true', Bool.or_eq_false_iff] at h ⊢
  exact ⟨h.1.1, h.2⟩

theorem credential_facts (c : Nat) (h : isCredential c = true) :
    isSpace c = false ∧ isQuote c = false := by
  simp only [isCredential, isBreak, Bool.not_eq_true', Bool.or_eq_false_iff] at h
  exact h.1.1.1

theorem tokenChar_facts (c : Nat) (h : isTokenChar c = true) :
    isSpace c = false ∧ isQuote c = false := by
  simp only [isTokenChar, isBreak, Bool.not_eq_true', Bool.or_eq_false_iff] at h
  exact h.1.1

theorem credential_of_keyChar {c : Nat} (h : isKeyChar c = true ∨ c = 58) :
    isCredential c = true := by
  have hrange : c = 45 ∨ c = 58 ∨ 48 ≤ c ∧ c ≤ 57 ∨ 65 ≤ c ∧ c ≤ 90 ∨ 97 ≤ c ∧ c ≤ 122 := by
    rcases h with h | h
    · simp only [isKeyChar, isAlnum, Bool.or_eq_true, decide_eq_true_eq, beq_iff_eq] at h
      omega
    · omega
  simp only [isCredential, isBreak, isSpace, isQuote, wideSpaces, Bool.not_eq_true',
    Bool.or_eq_false_iff, decide_eq_false_iff_not, beq_eq_false_iff_ne, ne_eq,
    List.contains_eq_mem, List.mem_cons, List.not_mem_nil, or_false]
  omega

/-- What ends a class ends a smaller one. -/
theorem opens_subclass {p q : Nat → Bool} (hsub : ∀ c, q c = true → p c = true) {s : PyStr}
    (h : opens p s = false) : opens q s = false := by
  cases s with
  | nil => rfl
  | cons c s =>
      cases hc : q c with
      | false => exact hc
      | true =>
          rw [opens_cons, hsub c hc] at h
          contradiction

/-- Behind a run the text does not go on with it, when it is edited. -/
theorem RunSite.behind {p : Nat → Bool} {b b' : Option Nat} {r m t o : PyStr}
    (h : RunSite p b r m t) (hedit : Edited (RunSite p) b' t o) : opens p o = false := by
  cases t with
  | nil =>
      rw [hedit.nil_left]
      rfl
  | cons c t =>
      have hc : p c = false := h.rest
      obtain ⟨o', rfl, -⟩ := hedit.cons_left fun r m t' heq hne hsite => by
        cases r with
        | nil => contradiction
        | cons d r =>
            obtain ⟨rfl, -⟩ := List.cons.inj heq
            rw [hsite.region d List.mem_cons_self] at hc
            contradiction
      exact hc

/-- Behind a query the text does not go on with it, when it is edited. -/
theorem QuerySite.behind {b : Option Nat} {r m t o : PyStr} (h : QuerySite r m t)
    (hedit : Edited (fun _ => QuerySite) b t o) : opens isQueryChar o = false := by
  cases t with
  | nil =>
      rw [hedit.nil_left]
      rfl
  | cons c t =>
      have hc : isQueryChar c = false := h.rest
      obtain ⟨o', rfl, -⟩ := hedit.cons_left fun r m t' heq _ hsite => by
        obtain ⟨run, rfl, -⟩ := hsite.region
        obtain ⟨rfl, -⟩ := List.cons.inj heq
        exact absurd hc (by decide)
      exact hc

/-- Replacing longer runs leaves marked runs of a class alone. -/
theorem runSite_respects {p q : Nat → Bool} (hsub : ∀ c, q c = true → p c = true)
    (hp : ∀ c, p c = true → isSpace c = false ∧ isQuote c = false) :
    Respects q (RunSite p) where
  mark h := Or.inl h.mark
  region {b r m t} h := by
    cases r with
    | nil => exact absurd rfl h.nonempty
    | cons c r => exact hp c (h.region c List.mem_cons_self)
  inside {b u v rest} hred hu _ r m t _ _ hsite := by
    obtain ⟨c, hc, hlast⟩ := lastOf_mem hu b
    obtain ⟨d, hd, hopening⟩ := hsite.before
    rw [hlast, Option.some.injEq] at hd
    obtain ⟨-, -, -, hsep, hspace, hquote⟩ := redacted_chars c (hred ▸ List.mem_append_left v hc)
    rw [← hd, hsep, hspace, hquote] at hopening
    simp at hopening
  tail {b r m t} h := Or.inl ⟨h.mark, fun o hedit => opens_subclass hsub (h.behind hedit)⟩

/-- Replacing queries leaves marked runs of a class with question marks alone. -/
theorem querySite_respects {p : Nat → Bool} (hp : p 63 = true) :
    Respects p fun _ => QuerySite where
  mark h := Or.inr (Or.inl h.mark)
  region {b r m t} h := by
    obtain ⟨run, rfl, -⟩ := h.region
    exact ⟨rfl, rfl⟩
  inside {b u v rest} hred hu hrest r m t heq _ hsite := by
    obtain ⟨run, rfl, -⟩ := hsite.region
    cases v with
    | nil =>
        rw [List.nil_append] at heq
        rw [← heq, List.cons_append, opens_cons, hp] at hrest
        contradiction
    | cons c v =>
        obtain ⟨rfl, -⟩ := List.cons.inj heq
        have hmem : 63 ∈ redacted := hred ▸ List.mem_append_right u List.mem_cons_self
        exact absurd hmem (by decide)
  tail {b r m t} h := by
    obtain ⟨run, rfl, -⟩ := h.region
    exact Or.inr ⟨63, run, rfl, hp, by decide⟩

theorem IsKeypair.chars {r : PyStr} (h : IsKeypair r) : ∀ c ∈ r, isKeyChar c = true ∨ c = 58 := by
  obtain ⟨a, s, rfl, ha, -, hs, -⟩ := h
  intro c hc
  rcases List.mem_append.mp hc with hc | hc
  · exact Or.inl (ha c hc)
  · rcases List.mem_cons.mp hc with rfl | hc
    · exact Or.inr rfl
    · exact Or.inl (by simp [isKeyChar, hs c hc])

theorem IsKeypair.length {r : PyStr} (h : IsKeypair r) : 41 ≤ r.length := by
  obtain ⟨a, s, rfl, -, ha, -, hs⟩ := h
  rw [List.length_append, List.length_cons]
  omega

/-- A key with its secret does not begin in front of a character that is in none. -/
theorem IsKeypair.not_prefix {r t v rest : PyStr} (h : IsKeypair r) {c : Nat} (hc : c ∈ v)
    (hchar : ¬ (isKeyChar c = true ∨ c = 58)) (hlen : v.length ≤ 41) : r ++ t ≠ v ++ rest := by
  intro heq
  have hleading : v <+: r :=
    List.prefix_of_prefix_length_le (heq ▸ List.prefix_append v rest) (List.prefix_append r t)
      (hlen.trans h.length)
  exact hchar (h.chars c (hleading.subset hc))

/-- Removing keys leaves marked runs of a class with their characters alone. -/
theorem keypairSite_respects {p : Nat → Bool} (wide : Nat → Bool)
    (hp : ∀ c, isCredential c = true → p c = true) : Respects p (KeypairSite wide) where
  mark h := Or.inr (Or.inr h.mark)
  region {b r m t} h := by
    cases r with
    | nil => exact ⟨rfl, rfl⟩
    | cons c r =>
        exact credential_facts c (credential_of_keyChar (h.region.chars c List.mem_cons_self))
  inside {b u v rest} hred hu hrest r m t heq hne hsite := by
    cases v with
    | nil =>
        cases r with
        | nil => contradiction
        | cons c r =>
            have hc := hp c (credential_of_keyChar (hsite.region.chars c List.mem_cons_self))
            rw [List.nil_append] at heq
            rw [← heq, List.cons_append, opens_cons, hc] at hrest
            contradiction
    | cons c v =>
        have hlen : (u ++ c :: v).length = 10 := hred ▸ by decide
        have hlast : 62 ∈ c :: v := by
          have hmark := markStart_of_inMark (s := (c :: v) ++ [])
            (InMark.of_append hred (List.cons_ne_nil c v) (Or.inl rfl))
          obtain ⟨w, o, -, hw, -, hmem, -⟩ := hmark
          rw [List.append_nil] at hw
          exact hw ▸ List.mem_append_left o hmem
        rw [List.length_append] at hlen
        exact hsite.region.not_prefix hlast (by decide) (by omega) heq
  tail {b r m t} h := by
    cases r with
    | nil =>
        have := h.region.length
        simp at this
    | cons c r =>
        have hc := h.region.chars c List.mem_cons_self
        refine Or.inr ⟨c, r, rfl, hp c (credential_of_keyChar hc), ?_⟩
        rintro rfl
        exact absurd hc (by decide)

/-! ## Each pass edits -/

/-- The last character of a word whose characters are of a class, or the one before it. -/
theorem lastOf_class {p : Nat → Bool} {w : PyStr} (hw : ∀ c ∈ w, p c = true) {c : Nat} :
    ∃ d, lastOf (some c) w = some d ∧ (d = c ∨ p d = true) := by
  by_cases hne : w = []
  · exact ⟨c, by rw [hne]; rfl, Or.inl rfl⟩
  · obtain ⟨d, hd, hlast⟩ := lastOf_mem hne (some c)
    exact ⟨d, hlast, Or.inr (hw d hd)⟩

theorem mem_takeWhile {p : Nat → Bool} {s : PyStr} : ∀ c ∈ s.takeWhile p, p c = true :=
  fun _ hc => List.mem_takeWhile_imp hc

/-- A separator ends with a colon or an equals sign, or with white space. -/
theorem sep_ends {s : PyStr} {y : Reading Nat} (h : sepScan s = some y) (b : Option Nat) :
    ∃ c, lastOf b y.word = some c ∧ (isSep c = true ∨ isSpace c = true) := by
  obtain ⟨x, -, y, hy, rfl⟩ := Scanner.andThen_eq_some.mp h
  obtain ⟨z, hz, w, hw, rfl⟩ := Scanner.andThen_eq_some.mp hy
  obtain ⟨c, t, -, hc, rfl⟩ := Scanner.one_eq_some.mp hz
  obtain rfl := Option.some.inj hw
  obtain ⟨d, hd, hor⟩ := lastOf_class (p := isSpace) (c := c) (mem_takeWhile (s := t))
  refine ⟨d, by simpa using hd, ?_⟩
  rcases hor with rfl | hor
  · exact Or.inl hc
  · exact Or.inr hor

theorem lead_splits : leadScan.Splits := by
  refine header_commits.splits.andThen fun s y h => ?_
  obtain rfl := Option.some.inj h
  cases hs : schemeScan s with
  | none => rfl
  | some z =>
      by_cases hz : opens isCredential z.rest = true
      · simpa [Option.filter, hz] using scheme_commits.splits s z hs
      · simp [Option.filter, hz]

/-- A header ends with a separator or with white space. -/
theorem lead_ends {s : PyStr} {l : Reading Nat} (h : leadScan s = some l) (b : Option Nat) :
    ∃ c, lastOf b l.word = some c ∧ (isSep c = true ∨ isSpace c = true) := by
  obtain ⟨x, hx, y, hy, rfl⟩ := Scanner.andThen_eq_some.mp h
  obtain ⟨n, -, sep, hsep, rfl⟩ := Scanner.andThen_eq_some.mp hx
  obtain ⟨c, hc, hclass⟩ := sep_ends hsep (lastOf b n.word)
  obtain rfl := Option.some.inj hy
  have hempty : ∃ d, lastOf b (n.word ++ sep.word ++ []) = some d ∧
      (isSep d = true ∨ isSpace d = true) := ⟨c, by simpa using hc, hclass⟩
  cases hs : schemeScan sep.rest with
  | none => simpa [hs] using hempty
  | some z =>
      by_cases hz : opens isCredential z.rest = true
      · obtain ⟨u, -, w, hw, rfl⟩ := Scanner.andThen_eq_some.mp hs
        obtain ⟨hopen, rfl⟩ := Scanner.plus_eq_some.mp hw
        have hne : u.rest.takeWhile isSpace ≠ [] := by
          cases hrest : u.rest with
          | nil =>
              rw [hrest] at hopen
              contradiction
          | cons d t =>
              rw [hrest] at hopen
              have hd : isSpace d = true := hopen
              simp [hd]
        obtain ⟨d, hd, hlast⟩ := lastOf_mem hne (lastOf (lastOf b (n.word ++ sep.word)) u.word)
        refine ⟨d, ?_, Or.inr (mem_takeWhile d hd)⟩
        rw [← hlast]
        simp [Option.filter, hz]
      · simpa [hs, Option.filter, hz] using hempty

theorem takeWhile_ne_nil {p : Nat → Bool} {s : PyStr} (h : opens p s = true) :
    s.takeWhile p ≠ [] := by
  cases s with
  | nil => contradiction
  | cons c s =>
      have hc : p c = true := h
      simp [hc]

/-- What is written for a header. -/
theorem keeping_header {b : Option Nat} {word rest : PyStr} :
    keeping [1] redacted ⟨b, rest, [(1, word)]⟩ = word ++ redacted := by
  simp [keeping, Point.group]

/-- What is replaced behind a header. -/
theorem header_site {s : PyStr} {l : Reading Nat} (hl : leadScan s = some l)
    (hopen : opens isCredential l.rest = true) (b : Option Nat) :
    RunSite isCredential (lastOf b l.word) (l.rest.takeWhile isCredential) redacted
      (l.rest.dropWhile isCredential) := by
  obtain ⟨c, hc, hclass⟩ := lead_ends hl b
  exact
    { before := ⟨c, hc, hclass.imp_right Or.inl⟩
      region := mem_takeWhile
      nonempty := takeWhile_ne_nil hopen
      mark := rfl
      rest := opens_dropWhile _ _ }

/-- The credentials of headers are replaced. -/
theorem bearer_edited (before : Option Nat) (s : PyStr) : Edited (RunSite isCredential) before s
    (bearer.sub (keeping [1] redacted) before s) := by
  refine Pattern.sub_edited (fun b s m hm => ?_) before s
  obtain ⟨l, hl, hopen, rfl⟩ := bearer_found.mp hm
  refine ⟨l.word, l.rest.takeWhile isCredential, redacted, ?_, keeping_header,
    takeWhile_ne_nil hopen, by decide, header_site hl hopen b⟩
  rw [List.append_assoc, List.takeWhile_append_dropWhile]
  exact lead_splits s l hl

/-- What is read of a quote. -/
theorem quote_word {s : PyStr} {q : Reading Nat} (h : quoteScan s = some q) :
    q.word = [] ∨ ∃ d, q.word = [d] ∧ isQuote d = true := by
  rw [quoteScan_eq] at h
  cases s with
  | nil =>
      obtain rfl := Option.some.inj h
      exact Or.inl rfl
  | cons d s =>
      by_cases hd : isQuote d = true
      · rw [opens_cons, if_pos hd, Scanner.one, if_pos hd, Option.some.injEq] at h
        exact Or.inr ⟨d, by rw [← h], hd⟩
      · rw [opens_cons, if_neg hd] at h
        obtain rfl := Option.some.inj h
        exact Or.inl rfl

/-- A token field ends with a separator, white space or a quote in front of its value. -/
theorem field_ends {s : PyStr} {l : Reading Nat} (h : fieldScan s = some l) (b : Option Nat) :
    ∃ c, lastOf b l.word = some c ∧
      (isSep c = true ∨ isSpace c = true ∨ isQuote c = true) := by
  obtain ⟨q₁, name, q₂, sep, q₃, -, -, -, hsep, hq₃, rfl⟩ := field_groups h
  obtain ⟨c, hc, hclass⟩ := sep_ends hsep (lastOf (lastOf (lastOf b q₁.word) name.word) q₂.word)
  rcases quote_word hq₃ with hnil | ⟨d, hd, hquote⟩
  · exact ⟨c, by simp [hnil, hc], hclass.imp_right Or.inl⟩
  · exact ⟨d, by simp [hd], Or.inr (Or.inr hquote)⟩

/-- What is replaced behind a token field. -/
theorem field_site {s : PyStr} {l : Reading Nat} (hl : fieldScan s = some l)
    (hopen : opens isTokenChar l.rest = true) (b : Option Nat) :
    RunSite isTokenChar (lastOf b l.word) (l.rest.takeWhile isTokenChar) redacted
      (l.rest.dropWhile isTokenChar) where
  before := field_ends hl b
  region := mem_takeWhile
  nonempty := takeWhile_ne_nil hopen
  mark := rfl
  rest := opens_dropWhile _ _

/-- The values of token fields are replaced. -/
theorem tokenField_edited (before : Option Nat) (s : PyStr) :
    Edited (RunSite isTokenChar) before s
      (tokenField.sub (keeping [1, 2, 3, 4, 5] redacted) before s) := by
  refine Pattern.sub_edited (fun b s m hm => ?_) before s
  obtain ⟨l, hl, hopen, rfl⟩ := tokenField_found.mp hm
  refine ⟨l.word, l.rest.takeWhile isTokenChar, redacted, ?_, keeping_field hl,
    takeWhile_ne_nil hopen, by decide, field_site hl hopen b⟩
  rw [List.append_assoc, List.takeWhile_append_dropWhile]
  exact field_commits.splits s l hl

theorem url_splits (literal : String → List (Nat → Bool)) : (urlScan literal).Splits :=
  (((Scanner.Splits.chars _).andThen (((Scanner.Splits.chars _).orElse
    Scanner.Splits.empty).andThen ((Scanner.Splits.chars _).andThen
      (Scanner.Splits.plus _)))).capture 1).andThen (Scanner.Splits.one _)

/-- What is replaced behind a URL. -/
theorem query_site_rest (rest : PyStr) : QuerySite (63 :: rest.takeWhile isQueryChar)
    (63 :: redacted) (rest.dropWhile isQueryChar) :=
  ⟨⟨_, rfl, mem_takeWhile⟩, rfl, opens_dropWhile _ _⟩

theorem query_site {literal : String → List (Nat → Bool)} {s : PyStr} {l : Reading Nat}
    (h : urlScan literal s = some l) : ∃ u, l.word = u ++ [63] ∧
      s = u ++ (63 :: l.rest.takeWhile isQueryChar) ++ l.rest.dropWhile isQueryChar := by
  obtain ⟨u, hword, -⟩ := url_groups h
  refine ⟨u, hword, ?_⟩
  rw [List.append_assoc, List.cons_append, List.takeWhile_append_dropWhile,
    url_splits literal s l h, hword]
  simp

/-- Signed queries are replaced. -/
theorem signedQs_edited (before : Option Nat) (s : PyStr) : Edited (fun _ => QuerySite) before s
    (signedQs.sub (keeping [1] (63 :: redacted)) before s) := by
  refine Pattern.sub_edited (fun b s m hm => ?_) before s
  obtain ⟨l, hl, -, hrest, -, hkeep⟩ := signedQs_found hm
  obtain ⟨u, hword, hs⟩ := query_site hl
  refine ⟨u, _, _, ?_, ?_, List.cons_ne_nil _ _, List.cons_ne_nil _ _,
    hrest ▸ query_site_rest l.rest⟩
  · rw [hrest]
    exact hs
  · rw [hkeep, hword, List.append_assoc]
    rfl

/-- All queries are replaced. -/
theorem anyQs_edited (before : Option Nat) (s : PyStr) : Edited (fun _ => QuerySite) before s
    (anyQs.sub (keeping [1] (63 :: redacted)) before s) := by
  refine Pattern.sub_edited (fun b s m hm => ?_) before s
  obtain ⟨l, hl, -, rfl⟩ := anyQs_found.mp hm
  obtain ⟨u, hword, hs⟩ := query_site hl
  refine ⟨u, _, _, hs, ?_, List.cons_ne_nil _ _, List.cons_ne_nil _ _, query_site_rest l.rest⟩
  rw [← List.nil_append l.groups, keeping_url hl [] rfl, hword, List.append_assoc]
  rfl

/-- Keys with their secrets are removed. -/
theorem keypair_edited (wide : Nat → Bool) (before : Option Nat) (s : PyStr) :
    Edited (KeypairSite wide) before s
      ((keypair wide).sub (fun _ => keypairMark) before s) := by
  refine Pattern.sub_edited (fun b s m hm => ?_) before s
  obtain ⟨r, hr, hs, hbefore, hrest⟩ := keypair_found hm
  have hne : r ≠ [] := List.ne_nil_of_length_pos (by have := hr.length; omega)
  refine ⟨[], r, keypairMark, hs, rfl, hne, by decide, ?_⟩
  rw [hs, opens_append hne] at hbefore
  exact
    { region := hr
      mark := rfl
      before := hbefore
      rest := hrest }

end Redact
end FrigateXdna
