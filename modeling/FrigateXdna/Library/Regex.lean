import Mathlib.Data.List.Basic
import Mathlib.Data.List.TakeWhile

/-!
# Regular expressions that backtrack

An expression matches a text in an order: greedy repetition tries the longest run first, and a
choice its first side.  What a search finds is the first of all matches at the leftmost place
with one, and a substitution replaces what it finds and goes on behind it.

An expression whose parts exclude one another never has to backtrack, and a scanner that only
looks ahead finds the same match.

Main results:

- Definition {lit}`Regex.ends`: where an expression may end, in the order it is tried.
- Definition {lit}`Pattern.sub`: a substitution from left to right.
- Theorem {lit}`Pattern.sub_eq_self`: a substitution that finds only what it would write.
- Theorem {lit}`Regex.Commits.seq`, {lit}`Regex.Commits.span`: expressions read by scanners.
-/

namespace FrigateXdna
namespace Library

variable {α β : Type}

/-! ## Points of a text -/

/-- Whether a text begins with a character of a class. -/
def opens (p : α → Bool) : List α → Bool
  | [] => false
  | c :: _ => p c

@[simp]
theorem opens_nil (p : α → Bool) : opens p [] = false :=
  rfl

@[simp]
theorem opens_cons (p : α → Bool) (c : α) (s : List α) : opens p (c :: s) = p c :=
  rfl

theorem opens_append {p : α → Bool} {s : List α} (h : s ≠ []) (t : List α) :
    opens p (s ++ t) = opens p s := by
  cases s with
  | nil => contradiction
  | cons c s => rfl

/-- What comes behind a run does not go on with it. -/
theorem opens_dropWhile (p : α → Bool) (s : List α) : opens p (s.dropWhile p) = false := by
  cases hdrop : s.dropWhile p with
  | nil => rfl
  | cons d t =>
      have := List.head?_dropWhile_not p s
      simpa [hdrop] using this

theorem dropWhile_of_not_opens {p : α → Bool} {s : List α} (h : opens p s = false) :
    s.dropWhile p = s := by
  cases s with
  | nil => rfl
  | cons c s => exact List.dropWhile_cons_of_neg (by simpa using h)

/-- A text goes on in one way behind a run of a class. -/
theorem run_unique {p : α → Bool} {v w s t : List α} (hv : ∀ c ∈ v, p c = true)
    (hw : ∀ c ∈ w, p c = true) (hs : opens p s = false) (ht : opens p t = false)
    (h : v ++ s = w ++ t) : s = t := by
  have hdrop := congrArg (List.dropWhile p) h
  rwa [List.dropWhile_append_of_pos hv, List.dropWhile_append_of_pos hw,
    dropWhile_of_not_opens hs, dropWhile_of_not_opens ht] at hdrop

/-- A text has one first character of a class. -/
theorem stop_unique {p : α → Bool} {v w s t : List α} {c d : α} (hv : ∀ x ∈ v, p x = false)
    (hw : ∀ x ∈ w, p x = false) (hc : p c = true) (hd : p d = true)
    (h : v ++ c :: s = w ++ d :: t) : c = d ∧ s = t := by
  have hrun : c :: s = d :: t := run_unique (p := fun x => !p x) (by simpa using hv)
    (by simpa using hw) (by simp [hc]) (by simp [hd]) h
  exact List.cons.inj hrun

/-- The character before what follows a word. -/
def lastOf (before : Option α) (word : List α) : Option α :=
  word.foldl (fun _ c => some c) before

@[simp]
theorem lastOf_nil (before : Option α) : lastOf before [] = before :=
  rfl

@[simp]
theorem lastOf_cons (before : Option α) (c : α) (word : List α) :
    lastOf before (c :: word) = lastOf (some c) word :=
  rfl

@[simp]
theorem lastOf_append (before : Option α) (v w : List α) :
    lastOf before (v ++ w) = lastOf (lastOf before v) w :=
  List.foldl_append ..

/-- The last character of a word that is not empty is one of the word. -/
theorem lastOf_mem {word : List α} (h : word ≠ []) (before : Option α) :
    ∃ c ∈ word, lastOf before word = some c := by
  induction word generalizing before with
  | nil => contradiction
  | cons c word ih =>
      rcases List.eq_nil_or_concat' word with rfl | ⟨init, last, rfl⟩
      · exact ⟨c, List.mem_cons_self, rfl⟩
      · exact ⟨last, by simp, by simp⟩

/-- Where a matcher stands: the character before, the text that is left, and the groups that
were captured, the latest first. -/
structure Point (α : Type) where
  before : Option α
  rest : List α
  groups : List (Nat × List α)
deriving DecidableEq, Repr

/-- The text of a group, empty when it took no part. -/
def Point.group (x : Point α) (n : Nat) : List α :=
  (x.groups.lookup n).getD []

/-! ## Expressions -/

/-- An expression: a character of a class, a greedy run of characters of a class (with a
bound), a sequence, a choice, a captured group, and a place between a word and no word. -/
inductive Regex (α : Type)
  | empty
  | one (p : α → Bool)
  | many (p : α → Bool) (most : Option Nat)
  | seq (a b : Regex α)
  | alt (a b : Regex α)
  | group (n : Nat) (a : Regex α)
  | boundary (word : α → Bool)

/-- Where a run of at most so many characters of a class may end, the longest first. -/
def runs (p : α → Bool) : Nat → Option α → List α → List (Option α × List α)
  | _, before, [] => [(before, [])]
  | 0, before, c :: s => [(before, c :: s)]
  | k + 1, before, c :: s =>
      if p c then runs p k (some c) s ++ [(before, c :: s)] else [(before, c :: s)]

namespace Regex

/-- Where an expression may end, in the order in which that is tried. -/
def ends : Regex α → Point α → List (Point α)
  | .empty, x => [x]
  | .one p, x =>
      match x.rest with
      | [] => []
      | c :: s => if p c then [{ x with before := some c, rest := s }] else []
  | .many p most, x =>
      (runs p (most.getD x.rest.length) x.before x.rest).map fun y =>
        { x with before := y.1, rest := y.2 }
  | .seq a b, x => (a.ends x).flatMap b.ends
  | .alt a b, x => a.ends x ++ b.ends x
  | .group n a, x => (a.ends x).map fun y =>
      { y with groups := (n, x.rest.take (x.rest.length - y.rest.length)) :: y.groups }
  | .boundary word, x =>
      if x.before.any word != x.rest.head?.any word then [x] else []

/-- How many characters an expression reads at least. -/
def width : Regex α → Nat
  | .empty => 0
  | .one _ => 1
  | .many _ _ => 0
  | .seq a b => a.width + b.width
  | .alt a b => min a.width b.width
  | .group _ a => a.width
  | .boundary _ => 0

/-- Characters of given classes, one after the other. -/
def chars (classes : List (α → Bool)) : Regex α :=
  classes.foldr (fun p r => seq (one p) r) empty

/-- So many characters of a class. -/
def times (p : α → Bool) (n : Nat) : Regex α :=
  chars (List.replicate n p)

/-- An expression that may be left out. -/
def opt (a : Regex α) : Regex α :=
  alt a empty

/-- A run of at least one character. -/
def plus (p : α → Bool) : Regex α :=
  seq (one p) (many p none)

end Regex

theorem runs_ne_nil (p : α → Bool) (k : Nat) (before : Option α) (s : List α) :
    runs p k before s ≠ [] := by
  cases s with
  | nil => cases k <;> simp [runs]
  | cons c s =>
      cases k with
      | zero => simp [runs]
      | succ k => by_cases hc : p c = true <;> simp [runs, hc]

theorem mem_runs {p : α → Bool} {k : Nat} {before : Option α} {s : List α}
    {y : Option α × List α} (h : y ∈ runs p k before s) :
    ∃ w, s = w ++ y.2 ∧ y.1 = lastOf before w ∧ ∀ c ∈ w, p c = true := by
  induction s generalizing k before with
  | nil =>
      rw [runs, List.mem_singleton] at h
      exact ⟨[], by simp [h]⟩
  | cons c s ih =>
      have hstop : y = (before, c :: s) →
          ∃ w, c :: s = w ++ y.2 ∧ y.1 = lastOf before w ∧ ∀ c ∈ w, p c = true :=
        fun heq => ⟨[], by simp [heq]⟩
      cases k with
      | zero =>
          rw [runs, List.mem_singleton] at h
          exact hstop h
      | succ k =>
          rw [runs] at h
          by_cases hc : p c = true
          · rw [if_pos hc, List.mem_append, List.mem_singleton] at h
            rcases h with h | h
            · obtain ⟨w, hs, hbefore, hw⟩ := ih h
              refine ⟨c :: w, by rw [List.cons_append, ← hs], hbefore, ?_⟩
              intro d hd
              rcases List.mem_cons.mp hd with rfl | hd
              · exact hc
              · exact hw d hd
            · exact hstop h
          · rw [if_neg hc, List.mem_singleton] at h
            exact hstop h

/-- A run may end behind every part of it. -/
theorem runs_mem {p : α → Bool} {w : List α} (hw : ∀ c ∈ w, p c = true) (t : List α) {k : Nat}
    (hk : w.length ≤ k) (before : Option α) :
    (lastOf before w, t) ∈ runs p k before (w ++ t) := by
  induction w generalizing k before with
  | nil =>
      cases t with
      | nil => cases k <;> simp [runs]
      | cons c t =>
          cases k with
          | zero => simp [runs]
          | succ k => by_cases hc : p c = true <;> simp [runs, hc]
  | cons c w ih =>
      cases k with
      | zero => simp at hk
      | succ k =>
          have hc := hw c List.mem_cons_self
          rw [List.cons_append, runs, if_pos hc]
          exact List.mem_append_left _
            (ih (fun c hc => hw c (List.mem_cons_of_mem _ hc)) (by simpa using hk) _)

/-- **A match is a word of the text**, at least as long as the expression is wide. -/
theorem Regex.ends_word {r : Regex α} {x y : Point α} (h : y ∈ r.ends x) :
    ∃ w, x.rest = w ++ y.rest ∧ y.before = lastOf x.before w ∧ r.width ≤ w.length := by
  induction r generalizing x y with
  | empty =>
      rw [ends, List.mem_singleton] at h
      exact ⟨[], by simp [h], by simp [h], Nat.le_refl 0⟩
  | one p =>
      rw [ends] at h
      cases hrest : x.rest with
      | nil => simp [hrest] at h
      | cons c s =>
          rw [hrest] at h
          by_cases hc : p c = true
          · simp only [hc, if_true, List.mem_singleton] at h
            exact ⟨[c], by simp [h], by simp [h], Nat.le_refl 1⟩
          · simp [hc] at h
  | many p most =>
      rw [ends, List.mem_map] at h
      obtain ⟨z, hz, rfl⟩ := h
      obtain ⟨w, hs, hbefore, -⟩ := mem_runs hz
      exact ⟨w, hs, hbefore, Nat.zero_le _⟩
  | seq a b iha ihb =>
      rw [ends, List.mem_flatMap] at h
      obtain ⟨z, hz, hy⟩ := h
      obtain ⟨v, hv, hvb, hvw⟩ := iha hz
      obtain ⟨w, hw, hwb, hww⟩ := ihb hy
      refine ⟨v ++ w, ?_, ?_, ?_⟩
      · rw [hv, hw, List.append_assoc]
      · rw [hwb, hvb, lastOf_append]
      · rw [List.length_append, width]
        omega
  | alt a b iha ihb =>
      rw [ends, List.mem_append] at h
      rcases h with h | h
      · obtain ⟨w, hw, hb, hlen⟩ := iha h
        exact ⟨w, hw, hb, (Nat.min_le_left _ _).trans hlen⟩
      · obtain ⟨w, hw, hb, hlen⟩ := ihb h
        exact ⟨w, hw, hb, (Nat.min_le_right _ _).trans hlen⟩
  | group n a ih =>
      rw [ends, List.mem_map] at h
      obtain ⟨z, hz, rfl⟩ := h
      obtain ⟨w, hw, hb, hlen⟩ := ih hz
      exact ⟨w, hw, hb, hlen⟩
  | boundary word =>
      rw [ends] at h
      by_cases hb : (x.before.any word != x.rest.head?.any word) = true
      · rw [if_pos hb, List.mem_singleton] at h
        exact ⟨[], by simp [h], by simp [h], Nat.le_refl 0⟩
      · rw [if_neg hb] at h
        exact absurd h List.not_mem_nil

/-! ## Substitution -/

/-- An expression that never matches the empty text. -/
structure Pattern (α : Type) where
  regex : Regex α
  consumes : 0 < regex.width

namespace Pattern

variable (P : Pattern α)

/-- The match that is found at a place. -/
def first (before : Option α) (s : List α) : Option (Point α) :=
  (P.regex.ends ⟨before, s, []⟩).head?

/-- A substitution, with so many characters that belong to the match before. -/
def subFrom (f : Point α → List α) : Nat → Option α → List α → List α
  | _, _, [] => []
  | skip + 1, _, c :: s => subFrom f skip (some c) s
  | 0, before, c :: s =>
      match P.first before (c :: s) with
      | none => c :: subFrom f 0 (some c) s
      | some m => f m ++ subFrom f (s.length - m.rest.length) (some c) s

/-- A substitution: every match from left to right is replaced, and what was not matched is
kept. -/
def sub (f : Point α → List α) (before : Option α) (s : List α) : List α :=
  P.subFrom f 0 before s

variable {P} {f : Point α → List α}

theorem first_word {before : Option α} {s : List α} {m : Point α}
    (h : P.first before s = some m) :
    ∃ w, w ≠ [] ∧ s = w ++ m.rest ∧ m.before = lastOf before w := by
  obtain ⟨w, hw, hb, hlen⟩ := Regex.ends_word (List.mem_of_mem_head? h)
  have := P.consumes
  exact ⟨w, List.ne_nil_of_length_pos (by omega), hw, hb⟩

theorem subFrom_append (f : Point α → List α) (w s : List α) (before : Option α) :
    P.subFrom f w.length before (w ++ s) = P.sub f (lastOf before w) s := by
  induction w generalizing before with
  | nil => rfl
  | cons c w ih => exact ih (some c)

@[simp]
theorem sub_nil (before : Option α) : P.sub f before [] = [] :=
  rfl

theorem sub_skip {before : Option α} {c : α} {s : List α}
    (h : P.first before (c :: s) = none) :
    P.sub f before (c :: s) = c :: P.sub f (some c) s := by
  rw [sub, subFrom, h]
  rfl

theorem sub_hit {before : Option α} {s : List α} {m : Point α}
    (h : P.first before s = some m) :
    P.sub f before s = f m ++ P.sub f m.before m.rest := by
  obtain ⟨w, hw, rfl, hb⟩ := first_word h
  cases w with
  | nil => contradiction
  | cons c w =>
      rw [List.cons_append] at h ⊢
      rw [sub, subFrom, h]
      have hlen : (w ++ m.rest).length - m.rest.length = w.length := by simp
      simp only [hlen, subFrom_append]
      rw [hb, lastOf_cons]

/-- How a substitution goes through a text: a place without a match is skipped, and a match is
replaced. -/
@[elab_as_elim]
theorem sub_induction {motive : Option α → List α → List α → Prop}
    (nil : ∀ before, motive before [] [])
    (skip : ∀ before c s, P.first before (c :: s) = none →
      motive (some c) s (P.sub f (some c) s) → motive before (c :: s) (c :: P.sub f (some c) s))
    (hit : ∀ before s m, P.first before s = some m →
      motive m.before m.rest (P.sub f m.before m.rest) →
      motive before s (f m ++ P.sub f m.before m.rest))
    (before : Option α) (s : List α) : motive before s (P.sub f before s) := by
  induction hlen : s.length using Nat.strong_induction_on generalizing before s with
  | _ n ih =>
      cases hfirst : P.first before s with
      | some m =>
          obtain ⟨w, hw, hs, -⟩ := first_word hfirst
          have hpos : 0 < w.length := List.length_pos_of_ne_nil hw
          have hshort : m.rest.length < n := by
            rw [← hlen, hs, List.length_append]
            omega
          rw [sub_hit hfirst]
          exact hit before s m hfirst (ih _ hshort _ _ rfl)
      | none =>
          cases s with
          | nil => exact nil before
          | cons c s =>
              rw [sub_skip hfirst]
              exact skip before c s hfirst (ih _ (by simp [← hlen]) _ _ rfl)

/-! ### Texts that a substitution leaves alone -/

/-- Wherever the pattern matches, the match is what would be written in its place. -/
def Settled (P : Pattern α) (f : Point α → List α) (s : List α) : Prop :=
  ∀ u v, s = u ++ v → ∀ m, P.first (lastOf none u) v = some m → f m ++ m.rest = v

/-- The pattern matches nowhere. -/
def Absent (P : Pattern α) (s : List α) : Prop :=
  ∀ u v, s = u ++ v → P.first (lastOf none u) v = none

theorem Absent.settled {s : List α} (h : P.Absent s) : P.Settled f s :=
  fun u v hs m hm => by
    rw [h u v hs] at hm
    contradiction

/-- **A settled text is not changed.** -/
theorem sub_eq_self {s : List α} (h : P.Settled f s) : P.sub f none s = s := by
  have hall : ∀ before t, (∃ u, s = u ++ t ∧ before = lastOf none u) → P.sub f before t = t := by
    intro before t
    refine sub_induction (motive := fun before t o =>
      (∃ u, s = u ++ t ∧ before = lastOf none u) → o = t) ?_ ?_ ?_ before t
    · exact fun _ _ => rfl
    · rintro before c t hfirst ih ⟨u, hs, hbefore⟩
      rw [ih ⟨u ++ [c], by simp [hs], by simp⟩]
    · rintro before t m hfirst ih ⟨u, hs, rfl⟩
      obtain ⟨w, -, hw, hb⟩ := first_word hfirst
      rw [ih ⟨u ++ w, by rw [hs, hw, List.append_assoc], by rw [hb, lastOf_append]⟩]
      exact h u t hs m hfirst
  exact hall none s ⟨[], rfl, rfl⟩

end Pattern

/-! ## Scanners -/

/-- What a scanner has read: a word, the groups captured in it, and what is left. -/
structure Reading (α : Type) where
  word : List α
  groups : List (Nat × List α)
  rest : List α
deriving DecidableEq, Repr

/-- A scanner reads a word at the head of a text, or refuses. -/
abbrev Scanner (α : Type) :=
  List α → Option (Reading α)

namespace Scanner

/-- Reads nothing. -/
def empty : Scanner α :=
  fun s => some ⟨[], [], s⟩

/-- Reads a character of a class. -/
def one (p : α → Bool) : Scanner α
  | [] => none
  | c :: s => if p c then some ⟨[c], [], s⟩ else none

/-- Reads all characters of a class that follow. -/
def span (p : α → Bool) : Scanner α :=
  fun s => some ⟨s.takeWhile p, [], s.dropWhile p⟩

/-- Reads all characters of a class that follow, at least one. -/
def plus (p : α → Bool) : Scanner α :=
  fun s => if opens p s then span p s else none

/-- One scanner behind another. -/
def andThen (σ τ : Scanner α) : Scanner α :=
  fun s => (σ s).bind fun x => (τ x.rest).map fun y =>
    ⟨x.word ++ y.word, y.groups ++ x.groups, y.rest⟩

/-- The second scanner where the first one refuses. -/
def orElse (σ τ : Scanner α) : Scanner α :=
  fun s => (σ s).or (τ s)

/-- A scanner whose word is captured. -/
def capture (n : Nat) (σ : Scanner α) : Scanner α :=
  fun s => (σ s).map fun x => { x with groups := (n, x.word) :: x.groups }

/-- Characters of given classes, one after the other. -/
def chars (classes : List (α → Bool)) : Scanner α :=
  classes.foldr (fun p σ => (one p).andThen σ) empty

/-- A scanner that may be left out. -/
def opt (σ : Scanner α) : Scanner α :=
  σ.orElse empty

/-- A scanner that may be left out, and is unless a character of a class comes behind it. -/
def optAhead (σ : Scanner α) (p : α → Bool) : Scanner α :=
  fun s => some (((σ s).filter fun y => opens p y.rest).getD ⟨[], [], s⟩)

/-- Whatever a scanner reads is what it leaves out. -/
def Splits (σ : Scanner α) : Prop :=
  ∀ s y, σ s = some y → s = y.word ++ y.rest

/-- In front of a character of one class, a scanner refuses or stops in front of one of
another class. -/
def Stuck (σ : Scanner α) (p q : α → Bool) : Prop :=
  ∀ c s, p c = true → ∀ y, σ (c :: s) = some y → ∃ d t, y.rest = d :: t ∧ q d = true

/-- A scanner that captures nothing. -/
def Plain (σ : Scanner α) : Prop :=
  ∀ s y, σ s = some y → y.groups = []

/-- A scanner that reads characters of a kind. -/
def Within (σ : Scanner α) (P : α → Prop) : Prop :=
  ∀ s y, σ s = some y → ∀ c ∈ y.word, P c

theorem andThen_eq_some {σ τ : Scanner α} {s : List α} {y : Reading α} :
    σ.andThen τ s = some y ↔ ∃ x, σ s = some x ∧ ∃ z, τ x.rest = some z ∧
      y = ⟨x.word ++ z.word, z.groups ++ x.groups, z.rest⟩ := by
  simp only [Scanner.andThen, Option.bind_eq_some_iff, Option.map_eq_some_iff]
  constructor
  · rintro ⟨x, hx, z, hz, rfl⟩
    exact ⟨x, hx, z, hz, rfl⟩
  · rintro ⟨x, hx, z, hz, rfl⟩
    exact ⟨x, hx, z, hz, rfl⟩

theorem andThen_assoc (σ τ υ : Scanner α) :
    (σ.andThen τ).andThen υ = σ.andThen (τ.andThen υ) := by
  funext s
  simp only [andThen]
  cases σ s with
  | none => rfl
  | some x =>
      cases hτ : τ x.rest with
      | none => simp [hτ]
      | some y => cases hυ : υ y.rest <;> simp [hτ, hυ]

theorem one_eq_some {p : α → Bool} {s : List α} {y : Reading α} :
    one p s = some y ↔ ∃ c t, s = c :: t ∧ p c = true ∧ y = ⟨[c], [], t⟩ := by
  constructor
  · intro h
    cases s with
    | nil => contradiction
    | cons c s =>
        rw [one] at h
        by_cases hc : p c = true
        · rw [if_pos hc, Option.some.injEq] at h
          exact ⟨c, s, rfl, hc, h.symm⟩
        · rw [if_neg hc] at h
          contradiction
  · rintro ⟨c, t, rfl, hc, rfl⟩
    exact if_pos hc

theorem plus_eq_some {p : α → Bool} {s : List α} {y : Reading α} :
    plus p s = some y ↔
      opens p s = true ∧ y = ⟨s.takeWhile p, [], s.dropWhile p⟩ := by
  rw [plus]
  by_cases hp : opens p s = true
  · rw [if_pos hp, span, Option.some.injEq]
    exact ⟨fun h => ⟨hp, h.symm⟩, fun h => h.2.symm⟩
  · rw [if_neg hp]
    exact ⟨fun h => by contradiction, fun h => absurd h.1 hp⟩

theorem Splits.one (p : α → Bool) : (one p).Splits := by
  intro s y h
  obtain ⟨c, t, rfl, -, rfl⟩ := one_eq_some.mp h
  rfl

theorem Splits.andThen {σ τ : Scanner α} (hσ : σ.Splits) (hτ : τ.Splits) :
    (σ.andThen τ).Splits := by
  intro s y h
  obtain ⟨x, hx, z, hz, rfl⟩ := andThen_eq_some.mp h
  rw [List.append_assoc, ← hτ _ _ hz, ← hσ _ _ hx]

theorem plus_eq (p : α → Bool) : plus p = (one p).andThen (span p) := by
  funext s
  cases s with
  | nil => rfl
  | cons c s => by_cases hc : p c = true <;> simp [plus, andThen, one, span, hc]

theorem Splits.plus (p : α → Bool) : (plus p).Splits := by
  intro s y h
  obtain ⟨-, rfl⟩ := plus_eq_some.mp h
  exact (List.takeWhile_append_dropWhile).symm

theorem Splits.empty : Splits (α := α) empty :=
  fun s y h => by rw [← Option.some.inj h]; rfl

theorem Splits.chars (classes : List (α → Bool)) : (chars classes).Splits := by
  induction classes with
  | nil => exact Splits.empty
  | cons p classes ih => exact (Splits.one p).andThen ih

/-- The same characters are read again whatever comes behind them. -/
theorem chars_again {classes : List (α → Bool)} {s : List α} {y : Reading α}
    (h : chars classes s = some y) (t : List α) :
    chars classes (y.word ++ t) = some { y with rest := t } := by
  induction classes generalizing s y with
  | nil =>
      obtain rfl := Option.some.inj h
      rfl
  | cons p classes ih =>
      obtain ⟨x, hx, z, hz, rfl⟩ := andThen_eq_some.mp h
      obtain ⟨c, s, rfl, hc, rfl⟩ := one_eq_some.mp hx
      exact andThen_eq_some.mpr ⟨_, one_eq_some.mpr ⟨c, z.word ++ t, rfl, hc, rfl⟩, _, ih hz, rfl⟩

theorem chars_length {classes : List (α → Bool)} {s : List α} {y : Reading α}
    (h : chars classes s = some y) : y.word.length = classes.length := by
  induction classes generalizing s y with
  | nil =>
      obtain rfl := Option.some.inj h
      rfl
  | cons p classes ih =>
      obtain ⟨x, hx, z, hz, rfl⟩ := andThen_eq_some.mp h
      obtain ⟨c, s, -, -, rfl⟩ := one_eq_some.mp hx
      rw [List.length_append, ih hz, List.length_singleton, List.length_cons, Nat.add_comm]

theorem chars_singleton (p : α → Bool) : chars [p] = one p := by
  funext s
  cases s with
  | nil => rfl
  | cons c s => by_cases hc : p c = true <;> simp [chars, andThen, one, empty, hc]

theorem Splits.orElse {σ τ : Scanner α} (hσ : σ.Splits) (hτ : τ.Splits) :
    (σ.orElse τ).Splits := by
  intro s y h
  rcases Option.or_eq_some_iff.mp h with h | ⟨-, h⟩
  · exact hσ s y h
  · exact hτ s y h

theorem Splits.capture {σ : Scanner α} (h : σ.Splits) (n : Nat) : (σ.capture n).Splits := by
  intro s y hy
  obtain ⟨x, hx, rfl⟩ := Option.map_eq_some_iff.mp hy
  exact h s x hx

theorem Plain.empty : Plain (α := α) empty :=
  fun s y h => by rw [← Option.some.inj h]

theorem Plain.one (p : α → Bool) : (one p).Plain := by
  intro s y h
  obtain ⟨c, t, -, -, rfl⟩ := one_eq_some.mp h
  rfl

theorem Plain.span (p : α → Bool) : (span p).Plain :=
  fun s y h => by rw [← Option.some.inj h]

theorem Plain.plus (p : α → Bool) : (plus p).Plain := by
  intro s y h
  obtain ⟨-, rfl⟩ := plus_eq_some.mp h
  rfl

theorem Plain.andThen {σ τ : Scanner α} (hσ : σ.Plain) (hτ : τ.Plain) : (σ.andThen τ).Plain := by
  intro s y h
  obtain ⟨x, hx, z, hz, rfl⟩ := andThen_eq_some.mp h
  rw [hσ s x hx, hτ x.rest z hz]
  rfl

theorem Plain.orElse {σ τ : Scanner α} (hσ : σ.Plain) (hτ : τ.Plain) : (σ.orElse τ).Plain := by
  intro s y h
  rcases Option.or_eq_some_iff.mp h with h | ⟨-, h⟩
  · exact hσ s y h
  · exact hτ s y h

theorem Plain.chars (classes : List (α → Bool)) : (chars classes).Plain := by
  induction classes with
  | nil => exact Plain.empty
  | cons p classes ih => exact (Plain.one p).andThen ih

theorem Within.empty (P : α → Prop) : Within empty P :=
  fun s y h => by
    rw [← Option.some.inj h]
    exact fun c hc => absurd hc List.not_mem_nil

theorem Within.one {p : α → Bool} {P : α → Prop} (hp : ∀ c, p c = true → P c) :
    (one p).Within P := by
  intro s y h d hd
  obtain ⟨c, t, -, hc, rfl⟩ := one_eq_some.mp h
  exact List.mem_singleton.mp hd ▸ hp c hc

theorem Within.plus {p : α → Bool} {P : α → Prop} (hp : ∀ c, p c = true → P c) :
    (plus p).Within P := by
  intro s y h
  obtain ⟨-, rfl⟩ := plus_eq_some.mp h
  exact fun c hc => hp c (List.mem_takeWhile_imp hc)

theorem Within.andThen {σ τ : Scanner α} {P : α → Prop} (hσ : σ.Within P) (hτ : τ.Within P) :
    (σ.andThen τ).Within P := by
  intro s y h c hc
  obtain ⟨x, hx, z, hz, rfl⟩ := andThen_eq_some.mp h
  rcases List.mem_append.mp hc with hc | hc
  · exact hσ s x hx c hc
  · exact hτ _ z hz c hc

theorem Within.orElse {σ τ : Scanner α} {P : α → Prop} (hσ : σ.Within P) (hτ : τ.Within P) :
    (σ.orElse τ).Within P := by
  intro s y h
  rcases Option.or_eq_some_iff.mp h with h | ⟨-, h⟩
  · exact hσ s y h
  · exact hτ s y h

theorem Within.opt {σ : Scanner α} {P : α → Prop} (h : σ.Within P) : (opt σ).Within P :=
  h.orElse (Within.empty P)

theorem Within.chars {classes : List (α → Bool)} {P : α → Prop}
    (h : ∀ p ∈ classes, ∀ c, p c = true → P c) : (chars classes).Within P := by
  induction classes with
  | nil => exact Within.empty P
  | cons p classes ih =>
      exact (Within.one (h p List.mem_cons_self)).andThen
        (ih fun p hp => h p (List.mem_cons_of_mem _ hp))

/-- What a scanner that captures nothing reads, captured. -/
theorem capture_eq_some {σ : Scanner α} (h : σ.Plain) {n : Nat} {s : List α} {y : Reading α} :
    σ.capture n s = some y ↔
      ∃ x, σ s = some x ∧ y = ⟨x.word, [(n, x.word)], x.rest⟩ := by
  rw [Scanner.capture, Option.map_eq_some_iff]
  constructor
  · rintro ⟨x, hx, rfl⟩
    exact ⟨x, hx, by rw [h s x hx]⟩
  · rintro ⟨x, hx, rfl⟩
    exact ⟨x, hx, by rw [h s x hx]⟩

/-- Nothing is in front of a class without characters. -/
theorem Stuck.never (σ : Scanner α) (q : α → Bool) : σ.Stuck (fun _ => false) q :=
  fun c s hc => by contradiction

theorem Stuck.one {p q : α → Bool} (h : ∀ c, p c = true → q c = false) (q' : α → Bool) :
    (one q).Stuck p q' := by
  intro c s hc y hy
  rw [Scanner.one, if_neg (by simp [h c hc])] at hy
  contradiction

theorem Stuck.andThen {σ τ : Scanner α} {p q r : α → Bool} (hσ : σ.Stuck p q)
    (hτ : τ.Stuck q r) : (σ.andThen τ).Stuck p r := by
  intro c s hc y hy
  obtain ⟨x, hx, z, hz, rfl⟩ := andThen_eq_some.mp hy
  obtain ⟨d, t, hrest, hd⟩ := hσ c s hc x hx
  rw [hrest] at hz
  exact hτ d t hd z hz

theorem Stuck.empty (p : α → Bool) : Stuck empty p p :=
  fun c s hc y hy => ⟨c, s, by rw [← Option.some.inj hy], hc⟩

theorem Stuck.orElse {σ τ : Scanner α} {p q : α → Bool} (hσ : σ.Stuck p q)
    (hτ : τ.Stuck p q) : (σ.orElse τ).Stuck p q := by
  intro c s hc y hy
  rw [Scanner.orElse, Option.or_eq_some_iff] at hy
  rcases hy with hy | ⟨-, hy⟩
  · exact hσ c s hc y hy
  · exact hτ c s hc y hy

theorem Stuck.span {p q r : α → Bool} (h : ∀ c, p c = true → q c = false ∧ r c = true) :
    (span q).Stuck p r := by
  intro c s hc y hy
  obtain ⟨hq, hr⟩ := h c hc
  rw [Scanner.span, List.dropWhile_cons_of_neg (by simp [hq]), Option.some.injEq] at hy
  exact ⟨c, s, by rw [← hy], hr⟩

theorem Stuck.capture {σ : Scanner α} {p q : α → Bool} (h : σ.Stuck p q) (n : Nat) :
    (σ.capture n).Stuck p q := by
  intro c s hc y hy
  obtain ⟨x, hx, rfl⟩ := Option.map_eq_some_iff.mp hy
  exact h c s hc x hx

end Scanner

/-- The point behind what was read. -/
def Point.past (x : Point α) (y : Reading α) : Point α :=
  ⟨lastOf x.before y.word, y.rest, y.groups ++ x.groups⟩

theorem Point.past_past (x : Point α) (y z : Reading α) :
    (x.past y).past z = x.past ⟨y.word ++ z.word, z.groups ++ y.groups, z.rest⟩ := by
  simp [Point.past, List.append_assoc]

namespace Regex

/-- Before anything that fails in front of the blocked characters, an expression ends where
the scanner stops, and nowhere else. -/
structure Commits (r : Regex α) (σ : Scanner α) (blocked : α → Bool) : Prop where
  splits : σ.Splits
  flatMap : ∀ (x : Point α) (K : Point α → List (Point α)),
    (∀ y c s, y.rest = c :: s → blocked c = true → K y = []) →
    (r.ends x).flatMap K = ((σ x.rest).map x.past).elim [] K

namespace Commits

variable {a b : Regex α} {σ τ : Scanner α} {p blocked blocked' : α → Bool}

theorem mono (h : Commits a σ blocked) (hle : ∀ c, blocked c = true → blocked' c = true) :
    Commits a σ blocked' where
  splits := h.splits
  flatMap x K hK := h.flatMap x K fun y c s hy hc => hK y c s hy (hle c hc)

protected theorem empty : Commits (α := α) Regex.empty Scanner.empty blocked where
  splits := Scanner.Splits.empty
  flatMap x K _ := by simp [ends, Scanner.empty, Point.past]

protected theorem one : Commits (Regex.one p) (Scanner.one p) blocked where
  splits := Scanner.Splits.one p
  flatMap x K _ := by
    cases hrest : x.rest with
    | nil => simp [ends, Scanner.one, hrest]
    | cons c s =>
        by_cases hc : p c = true <;> simp [ends, Scanner.one, hrest, hc, Point.past]

theorem seq (ha : Commits a σ blocked) (hb : Commits b τ blocked')
    (hstuck : τ.Stuck blocked blocked') : Commits (Regex.seq a b) (σ.andThen τ) blocked' where
  splits := ha.splits.andThen hb.splits
  flatMap x K hK := by
    have hblocked : ∀ y c s, y.rest = c :: s → blocked c = true →
        (b.ends y).flatMap K = [] := by
      intro y c s hy hc
      rw [hb.flatMap y K hK, hy]
      cases hτ : τ (c :: s) with
      | none => rfl
      | some z =>
          obtain ⟨d, t, hrest, hd⟩ := hstuck c s hc z hτ
          exact hK _ d t hrest hd
    rw [ends, List.flatMap_assoc, ha.flatMap x _ hblocked]
    unfold Scanner.andThen
    cases σ x.rest with
    | none => rfl
    | some y =>
        simp only [Option.map_some, Option.elim_some, Option.bind_some]
        rw [hb.flatMap (x.past y) K hK]
        change ((τ y.rest).map (x.past y).past).elim [] K = _
        cases τ y.rest with
        | none => rfl
        | some z => simp [Point.past, List.append_assoc]

/-- A sequence whose first part is read whatever comes behind it. -/
theorem seq_free (ha : Commits a σ fun _ => false) (hb : Commits b τ blocked) :
    Commits (Regex.seq a b) (σ.andThen τ) blocked :=
  ha.seq hb (Scanner.Stuck.never _ _)

/-- A choice whose second side has no chance where the first one matches. -/
theorem alt (ha : Commits a σ blocked) (hb : Commits b τ blocked)
    (hfirst : ∀ s y, σ s = some y → ∀ z, τ s = some z →
      ∃ c t, z.rest = c :: t ∧ blocked c = true) :
    Commits (Regex.alt a b) (σ.orElse τ) blocked where
  splits := ha.splits.orElse hb.splits
  flatMap x K hK := by
    rw [ends, List.flatMap_append, ha.flatMap x K hK, hb.flatMap x K hK]
    unfold Scanner.orElse
    cases hσ : σ x.rest with
    | none => simp
    | some y =>
        have hnone : ((τ x.rest).map x.past).elim [] K = [] := by
          cases hτ : τ x.rest with
          | none => rfl
          | some z =>
              obtain ⟨c, t, hrest, hc⟩ := hfirst _ y hσ z hτ
              exact hK _ c t hrest hc
        rw [hnone]
        simp

theorem group (ha : Commits a σ blocked) (n : Nat) :
    Commits (Regex.group n a) (σ.capture n) blocked where
  splits := ha.splits.capture n
  flatMap x K hK := by
    have hends := ha.flatMap x
      (fun y => K { y with
        groups := (n, x.rest.take (x.rest.length - y.rest.length)) :: y.groups })
      fun y c s hy hc => hK _ c s hy hc
    rw [ends, List.flatMap_map, hends]
    unfold Scanner.capture
    cases hσ : σ x.rest with
    | none => rfl
    | some y =>
        have hword : x.rest.take (x.rest.length - y.rest.length) = y.word := by
          rw [ha.splits _ _ hσ]
          simp
        simp [Point.past, hword]

protected theorem chars (classes : List (α → Bool)) :
    Commits (Regex.chars classes) (Scanner.chars classes) blocked := by
  induction classes with
  | nil => exact Commits.empty
  | cons p classes ih =>
      exact Commits.seq_free Commits.one ih

end Commits

/-- A run, seen by what does not go on behind a part of it. -/
theorem flatMap_runs {p : α → Bool} {K : Option α × List α → List β}
    (hK : ∀ before c s, p c = true → K (before, c :: s) = []) {k : Nat} (s : List α)
    (hk : s.length ≤ k) (before : Option α) :
    (runs p k before s).flatMap K = K (lastOf before (s.takeWhile p), s.dropWhile p) := by
  induction s generalizing k before with
  | nil => simp [runs]
  | cons c s ih =>
      cases k with
      | zero => simp at hk
      | succ k =>
          rw [runs]
          by_cases hc : p c = true
          · rw [if_pos hc, List.flatMap_append, ih (by simpa using hk)]
            simp [hc, hK before c s hc]
          · simp [hc]

/-- A greedy run in front of what does not go on behind a part of it. -/
theorem Commits.span {p blocked : α → Bool} (h : ∀ c, p c = true → blocked c = true) :
    Commits (many p none) (Scanner.span p) blocked where
  splits s y hy := by
    rw [← Option.some.inj hy]
    exact (List.takeWhile_append_dropWhile).symm
  flatMap x K hK := by
    rw [ends, List.flatMap_map, Option.getD_none, flatMap_runs _ _ (Nat.le_refl _)]
    · simp [Scanner.span, Point.past]
    · exact fun before c s hc => hK _ c s rfl (h c hc)

/-- A greedy run of at least one character. -/
theorem Commits.plus {p blocked : α → Bool} (h : ∀ c, p c = true → blocked c = true) :
    Commits (Regex.plus p) (Scanner.plus p) blocked := by
  rw [Scanner.plus_eq]
  exact Commits.seq_free Commits.one (Commits.span h)

/-- The first end of a run is behind all of it. -/
theorem head?_runs {p : α → Bool} {k : Nat} (s : List α) (hk : s.length ≤ k)
    (before : Option α) :
    (runs p k before s).head? =
      Option.some (lastOf before (s.takeWhile p), s.dropWhile p) := by
  induction s generalizing k before with
  | nil => simp [runs]
  | cons c s ih =>
      cases k with
      | zero => simp at hk
      | succ k =>
          rw [runs]
          by_cases hc : p c = true
          · rw [if_pos hc, List.head?_append, ih (by simpa using hk)]
            simp [hc]
          · simp [hc]

theorem head?_many (p : α → Bool) (x : Point α) :
    ((many p none).ends x).head? =
      Option.some (x.past ⟨x.rest.takeWhile p, [], x.rest.dropWhile p⟩) := by
  rw [ends, List.head?_map, Option.getD_none, head?_runs _ (Nat.le_refl _)]
  simp [Point.past]

theorem mem_many {p : α → Bool} {x y : Point α} :
    y ∈ (many p none).ends x ↔ ∃ w t, x.rest = w ++ t ∧ (∀ c ∈ w, p c = true) ∧
      y = x.past ⟨w, [], t⟩ := by
  rw [ends, List.mem_map]
  constructor
  · rintro ⟨z, hz, rfl⟩
    obtain ⟨w, hw, hb, hall⟩ := mem_runs hz
    exact ⟨w, z.2, hw, hall, by simp [Point.past, hb]⟩
  · rintro ⟨w, t, hrest, hw, rfl⟩
    have hlen : w.length ≤ (Option.none.getD x.rest.length : Nat) := by
      rw [Option.getD_none, hrest, List.length_append]
      omega
    have hmem := runs_mem hw t hlen x.before
    rw [← hrest] at hmem
    exact ⟨_, hmem, by simp [Point.past]⟩

theorem mem_chars {classes : List (α → Bool)} {x y : Point α} :
    y ∈ (chars classes).ends x ↔
      ∃ z, Scanner.chars classes x.rest = Option.some z ∧ y = x.past z := by
  have hcommits : Commits (chars classes) (Scanner.chars classes) fun _ => false :=
    Commits.chars classes
  have h := hcommits.flatMap x (fun y => [y]) fun _ _ _ _ h => by contradiction
  rw [List.flatMap_singleton'] at h
  rw [h]
  cases hz : Scanner.chars classes x.rest with
  | none => simp
  | some z => simp

theorem mem_one {p : α → Bool} {x y : Point α} :
    y ∈ (one p).ends x ↔ ∃ c t, x.rest = c :: t ∧ p c = true ∧ y = x.past ⟨[c], [], t⟩ := by
  rw [ends]
  cases hrest : x.rest with
  | nil => simp
  | cons c s =>
      by_cases hc : p c = true <;> simp [hc, Point.past]

theorem mem_boundary {word : α → Bool} {x y : Point α} :
    y ∈ (boundary word).ends x ↔ x.before.any word ≠ opens word x.rest ∧ y = x := by
  have hopens : x.rest.head?.any word = opens word x.rest := by
    cases x.rest <;> rfl
  rw [ends, hopens]
  by_cases h : x.before.any word = opens word x.rest <;> simp [h]

/-- So many characters of a class, and then all that may follow, are a long enough word of the
class. -/
theorem mem_times {p : α → Bool} {n : Nat} {x y : Point α} :
    y ∈ (times p n).ends x ↔ ∃ w t, x.rest = w ++ t ∧ (∀ c ∈ w, p c = true) ∧ w.length = n ∧
      y = x.past ⟨w, [], t⟩ := by
  induction n generalizing x y with
  | zero =>
      constructor
      · intro h
        obtain rfl := List.mem_singleton.mp h
        exact ⟨[], y.rest, rfl, by simp, rfl, by simp [Point.past]⟩
      · rintro ⟨w, t, hrest, -, hlen, rfl⟩
        obtain rfl := List.length_eq_zero_iff.mp hlen
        rw [List.nil_append] at hrest
        exact List.mem_singleton.mpr (by simp [Point.past, ← hrest])
  | succ n ih =>
      constructor
      · intro h
        obtain ⟨z, hz, hy⟩ := List.mem_flatMap.mp h
        obtain ⟨c, s, hrest, hc, rfl⟩ := mem_one.mp hz
        obtain ⟨w, t, hs, hw, hlen, rfl⟩ := ih.mp hy
        have hs : s = w ++ t := hs
        refine ⟨c :: w, t, by rw [hrest, hs]; rfl, ?_, by rw [List.length_cons, hlen], ?_⟩
        · intro d hd
          rcases List.mem_cons.mp hd with rfl | hd
          · exact hc
          · exact hw d hd
        · exact Point.past_past x _ _
      · rintro ⟨w, t, hrest, hw, hlen, rfl⟩
        cases w with
        | nil => contradiction
        | cons c w =>
            refine List.mem_flatMap.mpr ⟨_, mem_one.mpr ⟨c, w ++ t, hrest,
              hw c List.mem_cons_self, rfl⟩, ?_⟩
            refine ih.mpr ⟨w, t, rfl, fun d hd => hw d (List.mem_cons_of_mem _ hd),
              by simpa using hlen,
              (Point.past_past x ⟨[c], [], w ++ t⟩ ⟨w, [], t⟩).symm⟩

/-- What a run of at least one character reads. -/
theorem head?_plus (p : α → Bool) (x : Point α) :
    ((plus p).ends x).head? =
      (Scanner.plus p x.rest).map x.past := by
  cases hrest : x.rest with
  | nil => simp [plus, ends, hrest, Scanner.plus]
  | cons c s =>
      by_cases hc : p c = true
      · have hmany := head?_many p { x with before := Option.some c, rest := s }
        simp only [plus, ends, hrest, hc, if_true, List.flatMap_singleton] at hmany ⊢
        rw [hmany]
        simp [Point.past, hc, Scanner.plus, Scanner.span]
      · simp [plus, ends, hrest, hc, Scanner.plus]

/-- The first match of an expression that is read by a scanner, and one behind it. -/
theorem Commits.head? {a b : Regex α} {σ : Scanner α} {blocked : α → Bool}
    (h : Commits a σ blocked)
    (hb : ∀ y c s, y.rest = c :: s → blocked c = true → b.ends y = []) (x : Point α) :
    ((Regex.seq a b).ends x).head? = ((σ x.rest).map x.past).bind fun y => (b.ends y).head? := by
  rw [ends, h.flatMap x b.ends hb]
  cases σ x.rest <;> rfl

end Regex

/-- What a pattern finds is what a scanner reads. -/
def Pattern.ReadBy (P : Pattern α) (σ : Scanner α) : Prop :=
  ∀ before s, P.first before s = (σ s).map (Point.past ⟨before, s, []⟩)

/-- A committed expression with a run behind it. -/
theorem Regex.Commits.readBy_plus {a : Regex α} {σ : Scanner α} {p blocked : α → Bool}
    (h : Regex.Commits a σ blocked) (hp : ∀ c, blocked c = true → p c = false)
    {hconsumes : 0 < (Regex.seq a (Regex.plus p)).width} :
    (Pattern.mk _ hconsumes).ReadBy (σ.andThen (Scanner.plus p)) := by
  intro before s
  have hrun : ∀ y c s, y.rest = c :: s → blocked c = true → (Regex.plus p).ends y = [] := by
    intro y c s hy hc
    simp [Regex.plus, Regex.ends, hy, hp c hc]
  unfold Pattern.first
  rw [h.head? hrun]
  change ((σ s).map _).bind _ = _
  unfold Scanner.andThen
  cases σ s with
  | none => rfl
  | some y =>
      simp only [Option.map_some, Option.bind_some, Regex.head?_plus, Option.map_map]
      change (Scanner.plus p y.rest).map _ = _
      congr 1
      funext z
      exact Point.past_past _ y z

namespace Regex

variable {a b : Regex α} {σ τ : Scanner α} {p blocked : α → Bool}

/-- An optional expression in front of what goes on exactly behind characters of a class. -/
theorem Commits.head?_opt (hb : Commits b τ blocked) {K : Point α → List (Point α)}
    (hblocked : ∀ c, blocked c = true → p c = false)
    (hstop : ∀ y, opens p y.rest = false → K y = [])
    (hgo : ∀ y, opens p y.rest = true → K y ≠ []) (x : Point α) :
    (((opt b).ends x).flatMap K).head? =
      ((τ.optAhead p x.rest).map x.past).bind fun y => (K y).head? := by
  have hself : x.past ⟨[], [], x.rest⟩ = x := by simp [Point.past]
  rw [opt, ends, List.flatMap_append, hb.flatMap x K fun y c s hy hc => hstop y (by
    simp [hy, hblocked c hc])]
  simp only [ends, List.flatMap_singleton, Scanner.optAhead, Option.map_some, Option.bind_some]
  cases hτ : τ x.rest with
  | none => simp [hself]
  | some z =>
      by_cases hz : opens p z.rest = true
      · have hne := hgo (x.past z) hz
        obtain ⟨m, more, hK⟩ := List.exists_cons_of_ne_nil hne
        simp [Option.filter, hz, hK]
      · have hnil := hstop (x.past z) (by simpa [Point.past] using hz)
        simp [Option.filter, hz, hnil, hself]

/-- A captured expression with an optional end, and a run behind it. -/
theorem Commits.readBy_group_opt (ha : Commits a σ blocked) (hb : Commits b τ blocked)
    (hblocked : ∀ c, blocked c = true → p c = false)
    (hstuck : ∀ c s, blocked c = true → τ (c :: s) = none) (n : Nat)
    {hconsumes : 0 < (Regex.seq (Regex.group n (Regex.seq a (Regex.opt b))) (Regex.plus p)).width} :
    (Pattern.mk _ hconsumes).ReadBy
      (((σ.andThen (τ.optAhead p)).capture n).andThen (Scanner.plus p)) := by
  intro before s
  obtain ⟨x, hx⟩ : ∃ x : Point α, x = ⟨before, s, []⟩ := ⟨_, rfl⟩
  have hrest : x.rest = s := by rw [hx]
  let close : Point α → Point α := fun y =>
    { y with groups := (n, x.rest.take (x.rest.length - y.rest.length)) :: y.groups }
  have hhead : ∀ y, ((Regex.plus p).ends (close y)).head? =
      (Scanner.plus p y.rest).map (close y).past :=
    fun y => head?_plus p (close y)
  have hstop : ∀ y : Point α, opens p y.rest = false → (Regex.plus p).ends (close y) = [] := by
    intro y hy
    have hnone := hhead y
    rw [Scanner.plus, if_neg (by simp [hy])] at hnone
    exact List.head?_eq_none_iff.mp hnone
  have hgo : ∀ y : Point α, opens p y.rest = true → (Regex.plus p).ends (close y) ≠ [] := by
    intro y hy hnil
    have hsome := hhead y
    rw [Scanner.plus, if_pos hy, hnil] at hsome
    contradiction
  have hends : (Regex.seq (Regex.group n (Regex.seq a (Regex.opt b))) (Regex.plus p)).ends x =
      (a.ends x).flatMap fun z =>
        ((Regex.opt b).ends z).flatMap fun y => (Regex.plus p).ends (close y) := by
    rw [ends, ends, List.flatMap_map, ends, List.flatMap_assoc]
  have hfirst : ∀ y c t, y.rest = c :: t → blocked c = true →
      ((Regex.opt b).ends y).flatMap (fun y => (Regex.plus p).ends (close y)) = [] := by
    intro y c t hy hc
    have hnone := hb.head?_opt hblocked hstop hgo y
    rw [hy, Scanner.optAhead, hstuck c t hc] at hnone
    have hstopped : Scanner.plus p (c :: t) = none := by simp [Scanner.plus, hblocked c hc]
    simp only [Option.filter_none, Option.getD_none, Option.map_some, Option.bind_some, hhead,
      Point.past, hstopped, Option.map_none] at hnone
    exact List.head?_eq_none_iff.mp hnone
  unfold Pattern.first
  rw [← hx, hends, ha.flatMap x _ hfirst, hrest]
  cases hσ : σ s with
  | none => simp [Scanner.andThen, Scanner.capture, hσ]
  | some h =>
      simp only [Option.map_some, Option.elim_some]
      rw [hb.head?_opt hblocked hstop hgo]
      have hsplit := ha.splits s h hσ
      obtain ⟨r, hr, hrs⟩ : ∃ r, τ.optAhead p h.rest = some r ∧ h.rest = r.word ++ r.rest := by
        refine ⟨_, rfl, ?_⟩
        cases hτ : τ h.rest with
        | none => rfl
        | some z =>
            by_cases hz : opens p z.rest = true
            · simpa [Option.filter, hz] using hb.splits _ z hτ
            · simp [Option.filter, hz]
      have hword : s.take (s.length - r.rest.length) = h.word ++ r.word := by
        rw [hsplit, hrs, ← List.append_assoc, List.length_append, Nat.add_sub_cancel,
          List.take_left]
      simp only [Point.past, hr, Option.map_some, Option.bind_some, hhead, Scanner.andThen,
        Scanner.capture, hσ, Option.map_map]
      congr 1
      funext z
      simp [close, Point.past, hx, hword]

end Regex

end Library
end FrigateXdna
