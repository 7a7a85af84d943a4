import FrigateXdna.Library.Regex

/-!
# Edited texts

A text is edited where regions of it are replaced by marks and everything else is kept.  A
scanner that reads what was kept reads the same before and after, and a property of all places
of a text survives edits that respect it.

Main results:

- Definition {lit}`Edited`: a text and what became of it.
- Theorem {lit}`Pattern.sub_edited`: a substitution edits its text.
- Theorem {lit}`Edited.preserves`: properties of all places of a text.
- Theorem {lit}`Scanner.Mirrors.andThen`, {lit}`Scanner.Mirrors.span`,
  {lit}`Scanner.Tracks.plus`: scanners that see through edits.
-/

namespace FrigateXdna
namespace Library

variable {α : Type}

/-- A relation of a region that is replaced: the character before it, the region, the mark that
takes its place, and the text behind it. -/
abbrev Sites (α : Type) :=
  Option α → List α → List α → List α → Prop

/-- A text, with the character before it, and what became of it. -/
inductive Edited (site : Sites α) : Option α → List α → List α → Prop
  | nil (before : Option α) : Edited site before [] []
  | keep {before : Option α} (c : α) {t o : List α} (h : Edited site (some c) t o) :
      Edited site before (c :: t) (c :: o)
  | edit {before : Option α} {region mark t o : List α} (hsite : site before region mark t)
      (hregion : region ≠ []) (hmark : mark ≠ []) (h : Edited site (lastOf before region) t o) :
      Edited site before (region ++ t) (mark ++ o)

namespace Edited

variable {site : Sites α} {before : Option α} {t o : List α}

/-- What is kept, in front of an edited text. -/
theorem append_left (w : List α) (h : Edited site (lastOf before w) t o) :
    Edited site before (w ++ t) (w ++ o) := by
  induction w generalizing before with
  | nil => exact h
  | cons c w ih => exact keep c (ih h)

/-- **Properties of all places of a text.**  They survive when they survive at every place that
is kept, and hold at every place of a mark. -/
theorem preserves {Good : List α → Prop} (hnil : Good [])
    (hkeep : ∀ c t o, Good (c :: t) → Edited site (some c) t o → Good (c :: o))
    (hmarks : ∀ before region mark t o, site before region mark t →
      Edited site (lastOf before region) t o → ∀ m₁ m₂, mark = m₁ ++ m₂ → m₂ ≠ [] →
        Good (m₂ ++ o))
    (h : Edited site before t o) (hgood : ∀ v, v <:+ t → Good v) {v : List α} (hv : v <:+ o) :
    Good v := by
  induction h with
  | nil before => exact List.suffix_nil.mp hv ▸ hnil
  | keep c h ih =>
      rcases List.suffix_cons_iff.mp hv with rfl | hv
      · exact hkeep c _ _ (hgood _ (List.suffix_refl _)) h
      · exact ih (fun v hv => hgood v (hv.trans (List.suffix_cons _ _))) hv
  | @edit before region mark t o hsite hregion hmark h ih =>
      obtain ⟨u, hu⟩ := hv
      rcases List.append_eq_append_iff.mp hu with ⟨m, hm, rfl⟩ | ⟨m, rfl, hm⟩
      · by_cases hne : m = []
        · subst hne
          exact ih (fun v hv => hgood v (hv.trans (List.suffix_append _ _)))
            (List.suffix_refl _)
        · exact hmarks _ _ _ _ _ hsite h u m hm hne
      · exact ih (fun v hv => hgood v (hv.trans (List.suffix_append _ _))) ⟨m, hm.symm⟩

/-- A kept character, told by the marks not beginning with it. -/
theorem cons_right {c : α} (hmark : ∀ before region mark t, site before region mark t →
    ∀ m, mark ≠ c :: m) {o : List α} (h : Edited site before t (c :: o)) :
    ∃ t', t = c :: t' ∧ Edited site (some c) t' o := by
  generalize ho : c :: o = out at h
  cases h with
  | nil => contradiction
  | keep d h =>
      obtain ⟨rfl, rfl⟩ := List.cons.inj ho
      exact ⟨_, rfl, h⟩
  | @edit _ region mark t' o' hsite hregion hne h =>
      cases mark with
      | nil => contradiction
      | cons d mark =>
          obtain ⟨rfl, -⟩ := List.cons.inj ho
          exact absurd rfl (hmark _ _ _ _ hsite mark)

/-- A kept character, told by the regions not beginning with it. -/
theorem cons_left {c : α} {t : List α} (hregion : ∀ region mark t', region ++ t' = c :: t →
    region ≠ [] → ¬ site before region mark t') (h : Edited site before (c :: t) o) :
    ∃ o', o = c :: o' ∧ Edited site (some c) t o' := by
  generalize ht : c :: t = text at h
  cases h with
  | nil => contradiction
  | keep d h =>
      obtain ⟨rfl, rfl⟩ := List.cons.inj ht
      exact ⟨_, rfl, h⟩
  | edit hsite hne hmark h => exact absurd hsite (hregion _ _ _ ht.symm hne)

theorem nil_left (h : Edited site before [] o) : o = [] := by
  generalize ht : ([] : List α) = text at h
  cases h with
  | nil => rfl
  | keep => contradiction
  | edit _ hregion _ _ =>
      have := List.append_eq_nil_iff.mp ht.symm
      exact absurd this.1 hregion

/-- **Words that no region begins in are kept.** -/
theorem through {w t : List α}
    (hw : ∀ w₁ w₂, w = w₁ ++ w₂ → w₂ ≠ [] → ∀ region mark t', region ++ t' = w₂ ++ t →
      region ≠ [] → ¬ site (lastOf before w₁) region mark t')
    (h : Edited site before (w ++ t) o) :
    ∃ o', o = w ++ o' ∧ Edited site (lastOf before w) t o' := by
  induction w generalizing before o with
  | nil => exact ⟨o, rfl, h⟩
  | cons c w ih =>
      obtain ⟨out, ho, h'⟩ := cons_left (hw [] (c :: w) rfl (List.cons_ne_nil c w)) h
      obtain ⟨o', ho', h''⟩ := ih
        (fun w₁ w₂ hw₁ hne => hw (c :: w₁) w₂ (by rw [hw₁, List.cons_append]) hne) h'
      exact ⟨o', by rw [ho, ho', List.cons_append], h''⟩

/-- Words without a character that a mark begins with were there before. -/
theorem through_right {w : List α} (hw : ∀ c ∈ w, ∀ before region mark t,
    site before region mark t → ∀ m, mark ≠ c :: m) (h : Edited site before t (w ++ o)) :
    ∃ t', t = w ++ t' ∧ Edited site (lastOf before w) t' o := by
  induction w generalizing before t with
  | nil => exact ⟨t, rfl, h⟩
  | cons c w ih =>
      obtain ⟨t₁, rfl, h₁⟩ := cons_right (hw c List.mem_cons_self) h
      obtain ⟨t', rfl, h'⟩ := ih (fun d hd => hw d (List.mem_cons_of_mem _ hd)) h₁
      exact ⟨t', rfl, h'⟩

end Edited

/-! ## Substitutions -/

namespace Pattern

variable {P : Pattern α} {f : Point α → List α} {site : Sites α}

/-- **A substitution edits its text.** -/
theorem sub_edited (hsite : ∀ before s m, P.first before s = some m →
    ∃ kept region mark, s = kept ++ region ++ m.rest ∧ f m = kept ++ mark ∧ region ≠ [] ∧
      mark ≠ [] ∧ site (lastOf before kept) region mark m.rest)
    (before : Option α) (s : List α) : Edited site before s (P.sub f before s) := by
  refine sub_induction (motive := Edited site) Edited.nil ?_ ?_ before s
  · exact fun before c s _ ih => Edited.keep c ih
  · intro before s m hm ih
    obtain ⟨kept, region, mark, hs, hf, hregion, hmark, hok⟩ := hsite before s m hm
    obtain ⟨w, -, hw, hb⟩ := first_word hm
    obtain rfl : w = kept ++ region := by
      rw [hw] at hs
      exact List.append_cancel_right hs
    rw [hf, hw, List.append_assoc, List.append_assoc]
    rw [hb, lastOf_append] at ih ⊢
    exact Edited.append_left kept (Edited.edit hok hregion hmark ih)

/-- Properties of all places of a substituted text: they are to hold where a place was skipped,
and at every place of what was written. -/
theorem sub_places {Good : List α → Prop} (hnil : Good [])
    (hskip : ∀ before c s, P.first before (c :: s) = none → Good (c :: P.sub f (some c) s))
    (hhit : ∀ before s m, P.first before s = some m → ∀ v₁ v₂, f m = v₁ ++ v₂ → v₂ ≠ [] →
      Good (v₂ ++ P.sub f m.before m.rest))
    (before : Option α) (s : List α) : ∀ v, v <:+ P.sub f before s → Good v := by
  refine sub_induction (motive := fun _ _ o => ∀ v, v <:+ o → Good v) ?_ ?_ ?_ before s
  · exact fun _ v hv => List.suffix_nil.mp hv ▸ hnil
  · intro before c s hnone ih v hv
    rcases List.suffix_cons_iff.mp hv with rfl | hv
    · exact hskip before c s hnone
    · exact ih v hv
  · intro before s m hm ih v hv
    obtain ⟨u, hu⟩ := hv
    rcases List.append_eq_append_iff.mp hu with ⟨w, hw, rfl⟩ | ⟨w, rfl, hw⟩
    · by_cases hne : w = []
      · subst hne
        exact ih _ (List.suffix_refl _)
      · exact hhit before s m hm u w hw hne
    · exact ih v ⟨w, hw.symm⟩

end Pattern

/-! ## Scanners -/

namespace Scanner

variable {site : Sites α} {σ τ : Scanner α} {p q : α → Bool}

/-- What a scanner reads in an edited text it reads in the original as well. -/
def Mirrors (site : Sites α) (σ : Scanner α) : Prop :=
  ∀ before t o, Edited site before t o → ∀ y, σ o = some y →
    ∃ t', σ t = some ⟨y.word, y.groups, t'⟩ ∧ Edited site (lastOf before y.word) t' y.rest

namespace Mirrors

protected theorem empty : Mirrors site empty :=
  fun before t o h y hy => by
    obtain rfl := Option.some.inj hy
    exact ⟨t, rfl, h⟩

protected theorem one (hmark : ∀ before region mark t, site before region mark t →
    opens p mark = false) : Mirrors site (one p) := by
  intro before t o h y hy
  obtain ⟨c, o, rfl, hc, rfl⟩ := one_eq_some.mp hy
  obtain ⟨t', rfl, h'⟩ := h.cons_right fun before region mark t hsite m hm => by
    have := hmark _ _ _ _ hsite
    simp [hm, hc] at this
  exact ⟨t', one_eq_some.mpr ⟨c, t', rfl, hc, rfl⟩, h'⟩

protected theorem andThen (hσ : Mirrors site σ) (hτ : Mirrors site τ) :
    Mirrors site (σ.andThen τ) := by
  intro before t o h y hy
  obtain ⟨x, hx, z, hz, rfl⟩ := andThen_eq_some.mp hy
  obtain ⟨t', ht', h'⟩ := hσ before t o h x hx
  obtain ⟨t'', ht'', h''⟩ := hτ _ t' x.rest h' z hz
  refine ⟨t'', ?_, by rwa [lastOf_append]⟩
  simp [Scanner.andThen, ht', ht'']

protected theorem capture (hσ : Mirrors site σ) (n : Nat) : Mirrors site (σ.capture n) := by
  intro before t o h y hy
  obtain ⟨x, hx, rfl⟩ := Option.map_eq_some_iff.mp hy
  obtain ⟨t', ht', h'⟩ := hσ before t o h x hx
  exact ⟨t', by simp [Scanner.capture, ht'], h'⟩

protected theorem chars {classes : List (α → Bool)} (hmark : ∀ p ∈ classes,
    ∀ before region mark t, site before region mark t → opens p mark = false) :
    Mirrors site (chars classes) := by
  induction classes with
  | nil => exact Mirrors.empty
  | cons p classes ih =>
      exact Mirrors.andThen (Mirrors.one (hmark p List.mem_cons_self))
        (ih fun p hp => hmark p (List.mem_cons_of_mem _ hp))

/-- All characters of a class, where neither regions nor marks begin with one. -/
protected theorem span (hregion : ∀ before region mark t, site before region mark t →
      opens p region = false)
    (hmark : ∀ before region mark t, site before region mark t → opens p mark = false) :
    Mirrors site (span p) := by
  rintro before t o h y ⟨⟩
  have hstop : ∀ {w : List α} (rest : List α), w ≠ [] → opens p w = false →
      (w ++ rest).takeWhile p = [] ∧ (w ++ rest).dropWhile p = w ++ rest := by
    intro w rest hne hw
    cases w with
    | nil => contradiction
    | cons c w =>
        have hc : p c = false := by simpa using hw
        simp [hc]
  have hboth : t.takeWhile p = o.takeWhile p ∧
      Edited site (lastOf before (o.takeWhile p)) (t.dropWhile p) (o.dropWhile p) := by
    induction h with
    | nil before => exact ⟨rfl, Edited.nil before⟩
    | keep c h ih =>
        by_cases hc : p c = true
        · simpa [hc] using ih
        · simpa [hc] using Edited.keep c h
    | edit hsite hne hmne h _ =>
        obtain ⟨ht, hd⟩ := hstop _ hne (hregion _ _ _ _ hsite)
        obtain ⟨ht', hd'⟩ := hstop _ hmne (hmark _ _ _ _ hsite)
        rw [ht, ht', hd, hd']
        exact ⟨rfl, Edited.edit hsite hne hmne h⟩
  exact ⟨t.dropWhile p, by rw [Scanner.span, hboth.1], hboth.2⟩

/-- A choice between scanners that exclude each other. -/
protected theorem orElse (hσ : Mirrors site σ) (hτ : Mirrors site τ)
    (hfirst : ∀ s y, σ s = some y → τ s = none) : Mirrors site (σ.orElse τ) := by
  intro before t o h y hy
  rcases Option.or_eq_some_iff.mp hy with hy | ⟨-, hy⟩
  · obtain ⟨t', ht', h'⟩ := hσ before t o h y hy
    exact ⟨t', by simp [Scanner.orElse, ht'], h'⟩
  · obtain ⟨t', ht', h'⟩ := hτ before t o h y hy
    have hnone : σ t = none := by
      cases hσt : σ t with
      | none => rfl
      | some z =>
          rw [hfirst t z hσt] at ht'
          contradiction
    exact ⟨t', by simp [Scanner.orElse, hnone, ht'], h'⟩

/-- An optional character, where neither regions nor marks begin with one. -/
protected theorem opt (hregion : ∀ before region mark t, site before region mark t →
      opens p region = false)
    (hmark : ∀ before region mark t, site before region mark t → opens p mark = false) :
    Mirrors site (opt (one p)) := by
  intro before t o h y hy
  rcases Option.or_eq_some_iff.mp hy with hy | ⟨hnone, hy⟩
  · obtain ⟨t', ht', h'⟩ := Mirrors.one hmark before t o h y hy
    exact ⟨t', by simp [Scanner.opt, Scanner.orElse, ht'], h'⟩
  · obtain rfl := Option.some.inj hy
    refine ⟨t, ?_, h⟩
    have hout : Scanner.one p t = none := by
      cases h with
      | nil => rfl
      | keep c h =>
          rw [Scanner.one] at hnone ⊢
          by_cases hc : p c = true
          · simp [hc] at hnone
          · rw [if_neg hc]
      | @edit _ region mark t o hsite hne hmne h =>
          have hhead := hregion _ _ _ _ hsite
          cases region with
          | nil => contradiction
          | cons c region =>
              have hc : p c = false := by simpa using hhead
              simp [Scanner.one, hc]
    simp [Scanner.opt, Scanner.orElse, hout, Scanner.empty]

/-- An optional character in front of what begins with a character of another class, where no
mark begins with one of either. -/
theorem opt_andThen (hτ : Mirrors site τ)
    (hopens : ∀ s y, τ s = some y → opens q s = true)
    (hmark : ∀ before region mark t, site before region mark t →
      opens p mark = false ∧ opens q mark = false) :
    Mirrors site ((opt (one p)).andThen τ) := by
  intro before t o h y hy
  obtain ⟨x, hx, z, hz, rfl⟩ := andThen_eq_some.mp hy
  rcases Option.or_eq_some_iff.mp hx with hx | ⟨hnone, hx⟩
  · obtain ⟨t', ht', h'⟩ :=
      Mirrors.one (fun _ _ _ _ hsite => (hmark _ _ _ _ hsite).1) before t o h x hx
    obtain ⟨t'', ht'', h''⟩ := hτ _ t' x.rest h' z hz
    refine ⟨t'', ?_, by rwa [lastOf_append]⟩
    simp [Scanner.andThen, Scanner.opt, Scanner.orElse, ht', ht'']
  · obtain rfl := Option.some.inj hx
    have hq := hopens o z hz
    cases o with
    | nil => simp at hq
    | cons c o =>
        have hc : q c = true := by simpa using hq
        obtain ⟨t', ht', h'⟩ := hτ _ t _ h z hz
        obtain ⟨rest, rfl, -⟩ := h.cons_right fun before region mark t hsite m hm => by
          have := (hmark _ _ _ _ hsite).2
          simp [hm, hc] at this
        have hout : Scanner.one p (c :: rest) = none := by
          rw [Scanner.one] at hnone ⊢
          by_cases hpc : p c = true
          · simp [hpc] at hnone
          · rw [if_neg hpc]
        refine ⟨t', ?_, h'⟩
        simp [Scanner.andThen, Scanner.opt, Scanner.orElse, hout, Scanner.empty, ht']

/-- A run of at least one character, where neither regions nor marks begin with one. -/
protected theorem plus (hregion : ∀ before region mark t, site before region mark t →
      opens p region = false)
    (hmark : ∀ before region mark t, site before region mark t → opens p mark = false) :
    Mirrors site (plus p) := by
  rw [plus_eq]
  exact Mirrors.andThen (Mirrors.one hmark) (Mirrors.span hregion hmark)

end Mirrors

/-- Where a scanner gets in an edited text, it gets in the original, up to edits. -/
def Tracks (site : Sites α) (σ : Scanner α) : Prop :=
  ∀ before t o, Edited site before t o → ∀ y, σ o = some y →
    ∃ x b, σ t = some x ∧ Edited site b x.rest y.rest

namespace Tracks

theorem of_mirrors (h : Mirrors site σ) : Tracks site σ := by
  intro before t o hedit y hy
  obtain ⟨t', ht', hedit'⟩ := h before t o hedit y hy
  exact ⟨_, _, ht', hedit'⟩

protected theorem andThen (hσ : Tracks site σ) (hτ : Tracks site τ) :
    Tracks site (σ.andThen τ) := by
  intro before t o h y hy
  obtain ⟨x, hx, z, hz, rfl⟩ := andThen_eq_some.mp hy
  obtain ⟨x', b, hx', h'⟩ := hσ before t o h x hx
  obtain ⟨z', b', hz', h''⟩ := hτ b x'.rest x.rest h' z hz
  exact ⟨_, b', andThen_eq_some.mpr ⟨x', hx', z', hz', rfl⟩, h''⟩

protected theorem capture (hσ : Tracks site σ) (n : Nat) : Tracks site (σ.capture n) := by
  intro before t o h y hy
  obtain ⟨x, hx, rfl⟩ := Option.map_eq_some_iff.mp hy
  obtain ⟨x', b, hx', h'⟩ := hσ before t o h x hx
  exact ⟨_, b, Option.map_eq_some_iff.mpr ⟨x', hx', rfl⟩, h'⟩

/-- A run of at least one character, where regions and marks are of the class. -/
protected theorem plus (hregion : ∀ before region mark t, site before region mark t →
      ∀ c ∈ region, p c = true)
    (hmark : ∀ before region mark t, site before region mark t → ∀ c ∈ mark, p c = true) :
    Tracks site (plus p) := by
  intro before t o h y hy
  obtain ⟨hopen, rfl⟩ := plus_eq_some.mp hy
  have hopens : opens p t = true := by
    cases h with
    | nil => contradiction
    | keep c h => exact hopen
    | @edit _ region mark t o hsite hne hmne h =>
        cases region with
        | nil => contradiction
        | cons c region => exact hregion _ _ _ _ hsite c List.mem_cons_self
  have hrest : ∃ b, Edited site b (t.dropWhile p) (o.dropWhile p) := by
    clear hy hopen hopens
    induction h with
    | nil before => exact ⟨before, Edited.nil before⟩
    | keep c h ih =>
        by_cases hc : p c = true
        · simpa [hc] using ih
        · have hkeep : Edited site before (c :: _) (c :: _) := Edited.keep c h
          exact ⟨before, by simpa [hc] using hkeep⟩
    | edit hsite hne hmne h ih =>
        rwa [List.dropWhile_append_of_pos (hregion _ _ _ _ hsite),
          List.dropWhile_append_of_pos (hmark _ _ _ _ hsite)]
  obtain ⟨b, hb⟩ := hrest
  exact ⟨_, b, plus_eq_some.mpr ⟨hopens, rfl⟩, hb⟩

/-- What is refused everywhere is refused everywhere in an edited text. -/
theorem refuses (hσ : Tracks site σ) {before : Option α} {t o : List α}
    (h : Edited site before t o) (ht : σ t = none) : σ o = none := by
  cases hy : σ o with
  | none => rfl
  | some y =>
      obtain ⟨x, -, hx, -⟩ := hσ before t o h y hy
      rw [ht] at hx
      contradiction

end Tracks

end Scanner

end Library
end FrigateXdna
