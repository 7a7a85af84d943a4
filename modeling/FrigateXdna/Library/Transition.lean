import Mathlib.Data.List.Basic
import Mathlib.Logic.Basic

/-!
# Labelled machines, runs and observations

A machine is an executable step function.  Its label carries every choice that
the environment makes at that step, so a run is a list of labels and is
deterministic.  Each step emits observations; a law about "everything the system
ever does" is a law about the observations of a run.

Main results:

- Theorem {lit}`Machine.exec_invariant`: a state predicate kept by every step is
  kept by every run.
- Theorem {lit}`Machine.exec_events_of_along`: a run whose steps all meet a side
  condition keeps the invariant and only emits good observations.
- Theorem {lit}`Machine.exec_events_iff_along`: when each step emits only good
  observations exactly when it meets the condition, so does every run.
-/

namespace FrigateXdna
namespace Library

variable {σ α ε : Type*}

/-- A labelled machine.  A label that is not enabled in a state yields
{lean}`none`; otherwise the step yields the next state and what it emits. -/
structure Machine (σ α ε : Type*) where
  step : σ → α → Option (σ × List ε)

namespace Machine

variable (M : Machine σ α ε)

/-- Execute a list of labels, collecting the observations in order. -/
def exec : List α → σ → Option (σ × List ε)
  | [], s => some (s, [])
  | a :: as, s =>
      match M.step s a with
      | none => none
      | some (s', es) =>
          match exec as s' with
          | none => none
          | some (t, fs) => some (t, es ++ fs)

/-- Every step of the run that starts in {lit}`s` meets the condition {lit}`G`
in the state where it is taken. -/
def Along (G : σ → α → Prop) : List α → σ → Prop
  | [], _ => True
  | a :: as, s => G s a ∧ ∀ s' es, M.step s a = some (s', es) → Along G as s'

/-- A decidable condition can be checked along a run. -/
instance decidableAlong (G : σ → α → Prop) [∀ s a, Decidable (G s a)] :
    (as : List α) → (s : σ) → Decidable (M.Along G as s)
  | [], _ => isTrue trivial
  | a :: as, s =>
      match h : M.step s a with
      | none => decidable_of_iff (G s a) (by simp [Along, h])
      | some (s', es) =>
          haveI := decidableAlong G as s'
          decidable_of_iff (G s a ∧ M.Along G as s') (by simp [Along, h])

@[simp]
theorem exec_nil (s : σ) : M.exec [] s = some (s, []) :=
  rfl

/-- Split a nonempty run into its first step and the rest. -/
theorem exec_cons_eq_some {a : α} {as : List α} {s t : σ} {es : List ε} :
    M.exec (a :: as) s = some (t, es) ↔
      ∃ s' first rest, M.step s a = some (s', first) ∧
        M.exec as s' = some (t, rest) ∧ es = first ++ rest := by
  constructor
  · intro h
    simp only [exec] at h
    split at h
    · contradiction
    · rename_i s' first hstep
      split at h
      · contradiction
      · rename_i t' rest hrest
        cases h
        exact ⟨s', first, rest, hstep, hrest, rfl⟩
  · rintro ⟨s', first, rest, hstep, hrest, rfl⟩
    simp [exec, hstep, hrest]

/-- Running one list of labels after another. -/
theorem exec_append {as bs : List α} {s t : σ} {es : List ε} :
    M.exec (as ++ bs) s = some (t, es) ↔
      ∃ m first rest, M.exec as s = some (m, first) ∧
        M.exec bs m = some (t, rest) ∧ es = first ++ rest := by
  induction as generalizing s es with
  | nil => simp
  | cons a as ih =>
      rw [List.cons_append, exec_cons_eq_some]
      constructor
      · rintro ⟨s', first, rest, hstep, hrest, rfl⟩
        obtain ⟨m, mid, last, hmid, hlast, rfl⟩ := ih.mp hrest
        refine ⟨m, first ++ mid, last, ?_, hlast, by simp⟩
        exact (M.exec_cons_eq_some).mpr ⟨s', first, mid, hstep, hmid, rfl⟩
      · rintro ⟨m, first, rest, hfirst, hrest, rfl⟩
        obtain ⟨s', e1, e2, hstep, hmid, rfl⟩ := (M.exec_cons_eq_some).mp hfirst
        exact ⟨s', e1, e2 ++ rest, hstep,
          ih.mpr ⟨m, e2, rest, hmid, hrest, rfl⟩, by simp⟩

/-- The condition of a run also holds along its end. -/
theorem Along.of_append {G : σ → α → Prop} {as bs : List α} {s t : σ} {es : List ε}
    (h : M.Along G (as ++ bs) s) (hrun : M.exec as s = some (t, es)) : M.Along G bs t := by
  induction as generalizing s es with
  | nil =>
      simp only [exec_nil, Option.some.injEq, Prod.mk.injEq] at hrun
      exact hrun.1 ▸ h
  | cons a as ih =>
      obtain ⟨s', first, rest, hone, hrest, -⟩ := (M.exec_cons_eq_some).mp hrun
      exact ih (h.2 s' first hone) hrest

/-- An invariant of every step is an invariant of every run. -/
theorem exec_invariant {I : σ → Prop}
    (hstep : ∀ s a s' es, I s → M.step s a = some (s', es) → I s')
    {as : List α} {s t : σ} {es : List ε} (hs : I s)
    (hrun : M.exec as s = some (t, es)) : I t := by
  induction as generalizing s es with
  | nil =>
      simp only [exec_nil, Option.some.injEq, Prod.mk.injEq] at hrun
      exact hrun.1 ▸ hs
  | cons a as ih =>
      obtain ⟨s', first, rest, hone, hrest, -⟩ := (M.exec_cons_eq_some).mp hrun
      exact ih (hstep s a s' first hs hone) hrest

/-- Under an invariant, the steps of a run meet what every step from it meets. -/
theorem along_of_invariant {I : σ → Prop} {G : σ → α → Prop}
    (hstep : ∀ s a s' es, I s → M.step s a = some (s', es) → G s a ∧ I s')
    {as : List α} {s t : σ} {es : List ε} (hs : I s)
    (hrun : M.exec as s = some (t, es)) : M.Along G as s := by
  induction as generalizing s es with
  | nil => trivial
  | cons a as ih =>
      obtain ⟨s', first, rest, hone, hrest, -⟩ := (M.exec_cons_eq_some).mp hrun
      refine ⟨(hstep s a s' first hs hone).1, fun u fs hu => ?_⟩
      rw [hone] at hu
      cases hu
      exact ih (hstep s a s' first hs hone).2 hrest

/-- An invariant of the state together with everything emitted so far. -/
theorem exec_history {I : σ → List ε → Prop}
    (hstep : ∀ s past a s' es, I s past → M.step s a = some (s', es) → I s' (past ++ es))
    {as : List α} {s t : σ} {past es : List ε} (hs : I s past)
    (hrun : M.exec as s = some (t, es)) : I t (past ++ es) := by
  induction as generalizing s past es with
  | nil =>
      simp only [exec_nil, Option.some.injEq, Prod.mk.injEq] at hrun
      obtain ⟨rfl, rfl⟩ := hrun
      simpa using hs
  | cons a as ih =>
      obtain ⟨s', first, rest, hone, hrest, rfl⟩ := (M.exec_cons_eq_some).mp hrun
      rw [← List.append_assoc]
      exact ih (hstep s past a s' first hs hone) hrest

/-- A run whose steps all meet {lit}`G` keeps the invariant and emits only
observations that satisfy {lit}`P`. -/
theorem exec_events_of_along {I : σ → Prop} {G : σ → α → Prop} {P : ε → Prop}
    (hstep : ∀ s a s' es, I s → G s a → M.step s a = some (s', es) →
      I s' ∧ ∀ e ∈ es, P e)
    {as : List α} {s t : σ} {es : List ε} (hs : I s) (hG : M.Along G as s)
    (hrun : M.exec as s = some (t, es)) : I t ∧ ∀ e ∈ es, P e := by
  induction as generalizing s es with
  | nil =>
      simp only [exec_nil, Option.some.injEq, Prod.mk.injEq] at hrun
      obtain ⟨rfl, rfl⟩ := hrun
      exact ⟨hs, by simp⟩
  | cons a as ih =>
      obtain ⟨s', first, rest, hone, hrest, rfl⟩ := (M.exec_cons_eq_some).mp hrun
      obtain ⟨hs', hfirst⟩ := hstep s a s' first hs hG.1 hone
      obtain ⟨ht, hlast⟩ := ih hs' (hG.2 s' first hone) hrest
      refine ⟨ht, ?_⟩
      intro e he
      rcases List.mem_append.mp he with he | he
      · exact hfirst e he
      · exact hlast e he

/-- If, under an invariant, each single step emits only good observations
exactly when it meets the condition, then a whole run emits only good
observations exactly when all its steps meet the condition. -/
theorem exec_events_iff_along {I : σ → Prop} {G : σ → α → Prop} {P : ε → Prop}
    (hkeep : ∀ s a s' es, I s → M.step s a = some (s', es) → I s')
    (hexact : ∀ s a s' es, I s → M.step s a = some (s', es) →
      ((∀ e ∈ es, P e) ↔ G s a))
    {as : List α} {s t : σ} {es : List ε} (hs : I s)
    (hrun : M.exec as s = some (t, es)) :
    (∀ e ∈ es, P e) ↔ M.Along G as s := by
  induction as generalizing s es with
  | nil =>
      simp only [exec_nil, Option.some.injEq, Prod.mk.injEq] at hrun
      obtain ⟨-, rfl⟩ := hrun
      simp [Along]
  | cons a as ih =>
      obtain ⟨s', first, rest, hone, hrest, rfl⟩ := (M.exec_cons_eq_some).mp hrun
      have hhead : (∀ e ∈ first, P e) ↔ G s a := hexact s a s' first hs hone
      have htail : (∀ e ∈ rest, P e) ↔ M.Along G as s' :=
        ih (hkeep s a s' first hs hone) hrest
      constructor
      · intro hall
        refine ⟨hhead.mp (fun e he => hall e (List.mem_append_left _ he)), ?_⟩
        intro u fs hu
        rw [hone] at hu
        cases hu
        exact htail.mp (fun e he => hall e (List.mem_append_right _ he))
      · rintro ⟨hG, hrestG⟩ e he
        rcases List.mem_append.mp he with he | he
        · exact hhead.mpr hG e he
        · exact htail.mpr (hrestG s' first hone) e he

/-- Whether a run is possible and its last state passes a test. -/
def endsIn (as : List α) (s : σ) (p : σ → Bool) : Bool :=
  match M.exec as s with
  | some (t, _) => p t
  | none => false

theorem exists_exec_of_endsIn {as : List α} {s : σ} {p : σ → Bool}
    (h : M.endsIn as s p = true) : ∃ t es, M.exec as s = some (t, es) ∧ p t = true := by
  unfold endsIn at h
  split at h
  · rename_i t es hrun
    exact ⟨t, es, hrun, h⟩
  · contradiction

/-- Whether a run is possible and emits an observation that passes a test. -/
def emits (as : List α) (s : σ) (p : ε → Bool) : Bool :=
  match M.exec as s with
  | some (_, es) => es.any p
  | none => false

theorem exists_exec_of_emits {as : List α} {s : σ} {p : ε → Bool}
    (h : M.emits as s p = true) :
    ∃ t es e, M.exec as s = some (t, es) ∧ e ∈ es ∧ p e = true := by
  unfold emits at h
  split at h
  · rename_i t es hrun
    obtain ⟨e, he, hp⟩ := List.any_eq_true.mp h
    exact ⟨t, es, e, hrun, he, hp⟩
  · contradiction

/-! ## Properties of every state of a run -/

variable {M}

/-- The start state and every state the run passes have the property. -/
def Throughout (M : Machine σ α ε) (P : σ → Prop) : List α → σ → Prop
  | [], s => P s
  | a :: as, s => P s ∧ ∀ s' es, M.step s a = some (s', es) → Throughout M P as s'

/-- The last state of a run has a property of all its states. -/
theorem Throughout.last {P : σ → Prop} {as : List α} {s t : σ} {es : List ε}
    (h : M.Throughout P as s) (hrun : M.exec as s = some (t, es)) : P t := by
  induction as generalizing s es with
  | nil =>
      simp only [exec_nil, Option.some.injEq, Prod.mk.injEq] at hrun
      exact hrun.1 ▸ h
  | cons a as ih =>
      obtain ⟨s', first, rest, hone, hrest, -⟩ := (M.exec_cons_eq_some).mp hrun
      exact ih (h.2 s' first hone) hrest

/-- What follows from an invariant holds in every state a run passes. -/
theorem throughout_of_invariant {I P : σ → Prop}
    (hstep : ∀ s a s' es, I s → M.step s a = some (s', es) → I s')
    (hgood : ∀ s, I s → P s) (as : List α) {s : σ} (hs : I s) : M.Throughout P as s := by
  induction as generalizing s with
  | nil => exact hgood s hs
  | cons a as ih => exact ⟨hgood s hs, fun s' es h => ih (hstep s a s' es hs h)⟩

/-- What every step from an invariant meets is met by every step of a run, up to the
first label that is not enabled. -/
theorem along_of_keeps {I : σ → Prop} {G : σ → α → Prop}
    (hstep : ∀ s a s' es, I s → M.step s a = some (s', es) → I s')
    (hgood : ∀ s a, I s → G s a) (as : List α) {s : σ} (hs : I s) : M.Along G as s := by
  induction as generalizing s with
  | nil => trivial
  | cons a as ih => exact ⟨hgood s a hs, fun s' es h => ih (hstep s a s' es hs h)⟩

/-- If, under an invariant, each single step keeps a property exactly when it meets
the condition, then a run keeps it throughout exactly when all its steps meet the
condition. -/
theorem throughout_iff_along_of_invariant {I P : σ → Prop} {G : σ → α → Prop}
    (hkeep : ∀ s a s' es, I s → M.step s a = some (s', es) → I s')
    (hexact : ∀ s a s' es, I s → P s → M.step s a = some (s', es) → (P s' ↔ G s a))
    {as : List α} {s t : σ} {es : List ε} (hI : I s) (hs : P s)
    (hrun : M.exec as s = some (t, es)) : M.Throughout P as s ↔ M.Along G as s := by
  induction as generalizing s es with
  | nil => exact iff_of_true hs trivial
  | cons a as ih =>
      obtain ⟨s', first, rest, hone, hrest, -⟩ := (M.exec_cons_eq_some).mp hrun
      have hhead : P s' ↔ G s a := hexact s a s' first hI hs hone
      have hI' : I s' := hkeep s a s' first hI hone
      constructor
      · rintro ⟨-, hall⟩
        have htail := hall s' first hone
        have hs' : P s' := by
          cases as with
          | nil => exact htail
          | cons b bs => exact htail.1
        refine ⟨hhead.mp hs', fun u fs hu => ?_⟩
        rw [hone] at hu
        cases hu
        exact (ih hI' hs' hrest).mp htail
      · rintro ⟨hG, hall⟩
        refine ⟨hs, fun u fs hu => ?_⟩
        rw [hone] at hu
        cases hu
        exact (ih hI' (hhead.mpr hG) hrest).mpr (hall s' first hone)

/-- If, under an invariant, each single step keeps a property and emits only good
observations exactly when it meets the condition, and such a step keeps the invariant, then a
run does so exactly when all its steps meet the condition. -/
theorem throughout_events_iff_along {I P : σ → Prop} {Q : ε → Prop} {G : σ → α → Prop}
    (hexact : ∀ s a s' es, I s → M.step s a = some (s', es) →
      ((P s' ∧ ∀ e ∈ es, Q e) ↔ G s a))
    (hkeep : ∀ s a s' es, I s → G s a → M.step s a = some (s', es) → I s')
    {as : List α} {s t : σ} {es : List ε} (hI : I s) (hs : P s)
    (hrun : M.exec as s = some (t, es)) :
    (M.Throughout P as s ∧ ∀ e ∈ es, Q e) ↔ M.Along G as s := by
  induction as generalizing s es with
  | nil =>
      simp only [exec_nil, Option.some.injEq, Prod.mk.injEq] at hrun
      obtain ⟨-, rfl⟩ := hrun
      exact iff_of_true ⟨hs, by simp⟩ trivial
  | cons a as ih =>
      obtain ⟨s', first, rest, hone, hrest, rfl⟩ := (M.exec_cons_eq_some).mp hrun
      have hhead := hexact s a s' first hI hone
      constructor
      · rintro ⟨⟨-, hall⟩, hgood⟩
        have htail := hall s' first hone
        have hs' : P s' := by
          cases as with
          | nil => exact htail
          | cons b bs => exact htail.1
        have hG : G s a := hhead.mp ⟨hs', fun e he => hgood e (List.mem_append_left _ he)⟩
        refine ⟨hG, ?_⟩
        intro u fs hu
        rw [hone] at hu
        cases hu
        exact (ih (hkeep s a s' first hI hG hone) hs' hrest).mp
          ⟨htail, fun e he => hgood e (List.mem_append_right _ he)⟩
      · rintro ⟨hG, hall⟩
        obtain ⟨hs', hfirst⟩ := hhead.mpr hG
        obtain ⟨htail, hlast⟩ :=
          (ih (hkeep s a s' first hI hG hone) hs' hrest).mpr (hall s' first hone)
        refine ⟨⟨hs, fun u fs hu => ?_⟩, fun e he => ?_⟩
        · rw [hone] at hu
          cases hu
          exact htail
        · rcases List.mem_append.mp he with he | he
          · exact hfirst e he
          · exact hlast e he

/-- The same without an invariant. -/
theorem throughout_iff_along {P : σ → Prop} {G : σ → α → Prop}
    (hexact : ∀ s a s' es, P s → M.step s a = some (s', es) → (P s' ↔ G s a))
    {as : List α} {s t : σ} {es : List ε} (hs : P s)
    (hrun : M.exec as s = some (t, es)) : M.Throughout P as s ↔ M.Along G as s :=
  throughout_iff_along_of_invariant (I := fun _ => True) (fun _ _ _ _ _ _ => trivial)
    (fun s a s' es _ => hexact s a s' es) trivial hs hrun

/-! ## Guarded runs -/

/-- A run all of whose steps meet {lit}`G`, given step by step. -/
inductive Run (G : σ → α → Prop) : σ → List α → σ → List ε → Prop
  | nil (s : σ) : Run G s [] s []
  | cons {s s' t : σ} {a : α} {as : List α} {es fs : List ε} (hG : G s a)
      (hstep : M.step s a = some (s', es)) (hrest : Run G s' as t fs) :
      Run G s (a :: as) t (es ++ fs)

variable {G : σ → α → Prop}

/-- A guarded run is a run. -/
theorem Run.exec {as : List α} {s t : σ} {es : List ε} (h : M.Run G s as t es) :
    M.exec as s = some (t, es) := by
  induction h with
  | nil s => rfl
  | cons hG hstep hrest ih => exact (M.exec_cons_eq_some).mpr ⟨_, _, _, hstep, ih, rfl⟩

/-- A guarded run meets its guard at every step. -/
theorem Run.along {as : List α} {s t : σ} {es : List ε} (h : M.Run G s as t es) :
    M.Along G as s := by
  induction h with
  | nil s => trivial
  | cons hG hstep hrest ih =>
      refine ⟨hG, fun s' es h => ?_⟩
      rw [hstep] at h
      obtain ⟨rfl, -⟩ := Prod.mk.inj (Option.some.inj h)
      exact ih

/-- One guarded run after another. -/
theorem Run.append {as bs : List α} {s m t : σ} {es fs : List ε}
    (h₁ : M.Run G s as m es) (h₂ : M.Run G m bs t fs) :
    M.Run G s (as ++ bs) t (es ++ fs) := by
  induction h₁ with
  | nil s => exact h₂
  | cons hG hstep hrest ih =>
      rw [List.cons_append, List.append_assoc]
      exact .cons hG hstep (ih h₂)

end Machine
end Library
end FrigateXdna
