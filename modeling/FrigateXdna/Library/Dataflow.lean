import Mathlib.Data.List.Basic
import Mathlib.Logic.Relation

/-!
# Straight-line programs over named values

A program is a list of instructions; each reads some names and gives values to
others.  When every name is given once and read only afterwards, the values at the
end satisfy one equation per instruction, whatever the order of the other
instructions, so a transformation of the program is judged on its equations.

Main results:

- Theorem {lit}`run_of_mem`: at the end a name has the value its instruction gives.
- Theorem {lit}`Ordered.names_induction`: induction along the reading order.
- Theorem {lit}`run_rename`: renaming what a name reads to an equal input.
- Theorem {lit}`run_filter`: instructions whose names nothing reads can go.
- Theorem {lit}`run_any`: what reaches a name.
-/

namespace FrigateXdna
namespace Library
namespace Dataflow

variable {ι κ V : Type}

/-- An instruction reads names and gives values to names. -/
structure Instr (ι κ : Type) where
  op : κ
  uses : List ι
  defs : List ι

/-- The instruction with the names it reads changed. -/
def Instr.rename (ρ : ι → ι) (i : Instr ι κ) : Instr ι κ :=
  { i with uses := i.uses.map ρ }

@[simp]
theorem Instr.rename_defs (ρ : ι → ι) (i : Instr ι κ) : (i.rename ρ).defs = i.defs :=
  rfl

/-- Some instruction gives the name a value. -/
def Defined (p : List (Instr ι κ)) (x : ι) : Prop :=
  ∃ i ∈ p, x ∈ i.defs

/-- Every name is read only after the instruction that gives it, and given only once. -/
inductive Ordered : List (Instr ι κ) → Prop
  | nil : Ordered []
  | cons {i : Instr ι κ} {p : List (Instr ι κ)}
      (huses : ∀ x ∈ i.uses, ¬ Defined (i :: p) x)
      (hdefs : ∀ x ∈ i.defs, ¬ Defined p x)
      (hp : Ordered p) : Ordered (i :: p)

theorem defined_cons {i : Instr ι κ} {p : List (Instr ι κ)} {x : ι} :
    Defined (i :: p) x ↔ x ∈ i.defs ∨ Defined p x := by
  simp [Defined]

theorem Defined.mono {p q : List (Instr ι κ)} {x : ι} (h : Defined p x) (hsub : p ⊆ q) :
    Defined q x := by
  obtain ⟨i, hi, hx⟩ := h
  exact ⟨i, hsub hi, hx⟩

/-- Renaming what is read changes no definition. -/
theorem defined_rename (ρ : ι → ι) (p : List (Instr ι κ)) (x : ι) :
    Defined (p.map (Instr.rename ρ)) x ↔ Defined p x := by
  simp [Defined]

/-- Fewer instructions are still ordered. -/
theorem Ordered.sublist {p q : List (Instr ι κ)} (h : Ordered q) (hsub : p.Sublist q) :
    Ordered p := by
  induction h generalizing p with
  | nil =>
      rw [List.sublist_nil.mp hsub]
      exact .nil
  | cons huses hdefs _ ih =>
      cases hsub with
      | cons _ hrest => exact ih hrest
      | cons_cons _ hrest =>
          refine .cons (fun x hx hdef => huses x hx (hdef.mono ?_))
            (fun x hx hdef => hdefs x hx (hdef.mono hrest.subset)) (ih hrest)
          exact (hrest.cons_cons _).subset

/-- Instructions that read less are still ordered. -/
theorem Ordered.reads_less {α : Type} {f g : α → Instr ι κ} {l : List α}
    (h : Ordered (l.map f)) (hdefs : ∀ a ∈ l, (g a).defs = (f a).defs)
    (huses : ∀ a ∈ l, (g a).uses ⊆ (f a).uses) : Ordered (l.map g) := by
  have hdefined : ∀ l' : List α, (∀ a ∈ l', (g a).defs = (f a).defs) →
      ∀ x, Defined (l'.map g) x → Defined (l'.map f) x := by
    rintro l' hl' x ⟨i, hi, hx⟩
    obtain ⟨a, ha, rfl⟩ := List.mem_map.mp hi
    exact ⟨f a, List.mem_map_of_mem ha, hl' a ha ▸ hx⟩
  induction l with
  | nil => exact .nil
  | cons a l ih =>
      cases h with
      | cons hfuses hfdefs hrest =>
          have hrestdefs : ∀ b ∈ l, (g b).defs = (f b).defs :=
            fun b hb => hdefs b (List.mem_cons_of_mem a hb)
          refine .cons (fun x hx hdef => ?_) (fun x hx hdef => ?_)
            (ih hrest hrestdefs fun b hb => huses b (List.mem_cons_of_mem a hb))
          · exact hfuses x (huses a List.mem_cons_self hx) (hdefined (a :: l) hdefs x hdef)
          · rw [hdefs a List.mem_cons_self] at hx
            exact hfdefs x hx (hdefined l hrestdefs x hdef)

/-- Reading inputs in place of other names keeps the order. -/
theorem Ordered.rename {p : List (Instr ι κ)} (h : Ordered p) {ρ : ι → ι}
    (hρ : ∀ x, ρ x = x ∨ ¬ Defined p (ρ x)) : Ordered (p.map (Instr.rename ρ)) := by
  induction h with
  | nil => exact .nil
  | @cons i p huses hdefs _ ih =>
      refine .cons (fun x hx hdef => ?_)
        (fun x hx hdef => hdefs x hx ((defined_rename ρ p x).mp hdef))
        (ih fun x => (hρ x).imp_right fun hnot hdef =>
          hnot (hdef.mono (List.subset_cons_self i p)))
      obtain ⟨y, hy, rfl⟩ := List.mem_map.mp hx
      have hdef' : Defined (i :: p) (ρ y) := (defined_rename ρ (i :: p) (ρ y)).mp hdef
      rcases hρ y with hkeep | hinput
      · rw [hkeep] at hdef'
        exact huses y hy hdef'
      · exact hinput hdef'

/-- In an ordered program an instruction reads nothing that it or a later one gives. -/
theorem Ordered.of_append {before after : List (Instr ι κ)} {i : Instr ι κ}
    (h : Ordered (before ++ i :: after)) :
    (∀ x ∈ i.uses, ¬ Defined (i :: after) x) ∧ ∀ x ∈ i.defs, ¬ Defined after x := by
  induction before with
  | nil =>
      cases h with
      | cons huses hdefs _ => exact ⟨huses, hdefs⟩
  | cons _ _ ih =>
      cases h with
      | cons _ _ hrest => exact ih hrest

/-- One instruction gives each name, and what it reads is given before it. -/
theorem Ordered.unique {p : List (Instr ι κ)} (h : Ordered p) {i j : Instr ι κ} (hi : i ∈ p)
    (hj : j ∈ p) {x : ι} (hxi : x ∈ i.defs) (hxj : x ∈ j.defs) : i = j := by
  induction h with
  | nil => exact absurd hi List.not_mem_nil
  | cons _ hdefs _ ih =>
      rcases List.mem_cons.mp hi with rfl | hi' <;> rcases List.mem_cons.mp hj with rfl | hj'
      · rfl
      · exact absurd ⟨j, hj', hxj⟩ (hdefs x hxi)
      · exact absurd ⟨i, hi', hxi⟩ (hdefs x hxj)
      · exact ih hi' hj'

/-- Induction along the reading order: a property of every name that no instruction
gives, which passes from what an instruction reads to what it gives, holds of every
name. -/
theorem Ordered.names_induction {p : List (Instr ι κ)} (h : Ordered p) {P : ι → Prop}
    (hinput : ∀ x, ¬ Defined p x → P x)
    (hgiven : ∀ i ∈ p, (∀ u ∈ i.uses, P u) → ∀ x ∈ i.defs, P x) (x : ι) : P x := by
  induction h with
  | nil => exact hinput x (by simp [Defined])
  | @cons i p huses hdefs _ ih =>
      have hearly : ∀ y, ¬ Defined p y → P y := by
        intro y hy
        by_cases hyi : y ∈ i.defs
        · refine hgiven i List.mem_cons_self (fun u hu => ?_) y hyi
          exact hinput u (huses u hu)
        · exact hinput y fun hdef => (defined_cons.mp hdef).elim hyi hy
      exact ih hearly fun j hj => hgiven j (List.mem_cons_of_mem i hj)

/-! ## Running a program -/

section Run

variable [DecidableEq ι] (sem : κ → List V → ι → V)

/-- One instruction: the names it gives have the values of its operation. -/
def exec (env : ι → V) (i : Instr ι κ) : ι → V :=
  fun x => if x ∈ i.defs then sem i.op (i.uses.map env) x else env x

/-- The values at the end of the program. -/
def run (env : ι → V) (p : List (Instr ι κ)) : ι → V :=
  p.foldl (exec sem) env

variable {sem}

@[simp]
theorem run_nil (env : ι → V) : run sem env [] = env :=
  rfl

theorem run_cons (env : ι → V) (i : Instr ι κ) (p : List (Instr ι κ)) :
    run sem env (i :: p) = run sem (exec sem env i) p :=
  rfl

/-- A name that no instruction gives keeps its value. -/
theorem run_of_not_defined {env : ι → V} {p : List (Instr ι κ)} {x : ι}
    (h : ¬ Defined p x) : run sem env p x = env x := by
  induction p generalizing env with
  | nil => rfl
  | cons i p ih =>
      rw [defined_cons, not_or] at h
      rw [run_cons, ih h.2, exec, if_neg h.1]

/-- At the end a name has the value its instruction gives for the values at the end of
the names it reads. -/
theorem run_of_mem {env : ι → V} {p : List (Instr ι κ)} (h : Ordered p) {i : Instr ι κ}
    (hi : i ∈ p) {x : ι} (hx : x ∈ i.defs) :
    run sem env p x = sem i.op (i.uses.map (run sem env p)) x := by
  induction h generalizing env with
  | nil => exact absurd hi List.not_mem_nil
  | @cons j p huses hdefs _ ih =>
      rw [run_cons]
      rcases List.mem_cons.mp hi with rfl | hi'
      · rw [run_of_not_defined (hdefs x hx), exec, if_pos hx]
        congr 1
        refine List.map_congr_left fun u hu => ?_
        have hu' := huses u hu
        rw [defined_cons, not_or] at hu'
        rw [run_of_not_defined hu'.2, exec, if_neg hu'.1]
      · exact ih hi'

/-- Values that no instruction reads do not matter to the others. -/
theorem run_congr {env env' : ι → V} {p : List (Instr ι κ)} (h : Ordered p)
    (huses : ∀ i ∈ p, ∀ u ∈ i.uses, env u = env' u) {x : ι} (hx : env x = env' x) :
    run sem env p x = run sem env' p x := by
  have hall : ∀ y, (env y = env' y) → run sem env p y = run sem env' p y := by
    intro y
    refine h.names_induction (P := fun y => env y = env' y →
      run sem env p y = run sem env' p y) ?_ ?_ y
    · intro y hy henv
      rw [run_of_not_defined hy, run_of_not_defined hy, henv]
    · intro i hi hreads y hy _
      rw [run_of_mem h hi hy, run_of_mem h hi hy]
      congr 1
      exact List.map_congr_left fun u hu => hreads u hu (huses i hi u hu)
  exact hall x hx

/-- Renaming keeps the values of a set of names that is closed under reading, when each
name that is read for it becomes an input with the same value. -/
theorem run_rename {env : ι → V} {p : List (Instr ι κ)} {ρ : ι → ι} (h : Ordered p)
    (hρ : Ordered (p.map (Instr.rename ρ))) {K : ι → Prop}
    (hclosed : ∀ i ∈ p, ∀ y ∈ i.defs, K y → ∀ u ∈ i.uses, K u)
    (hsame : ∀ i ∈ p, ∀ y ∈ i.defs, K y → ∀ u ∈ i.uses,
      ρ u = u ∨ ¬ Defined p (ρ u) ∧ run sem env p u = env (ρ u))
    {x : ι} (hx : K x) :
    run sem env (p.map (Instr.rename ρ)) x = run sem env p x := by
  revert hx
  refine h.names_induction (P := fun y => K y →
    run sem env (p.map (Instr.rename ρ)) y = run sem env p y) ?_ ?_ x
  · intro y hy _
    rw [run_of_not_defined hy, run_of_not_defined (mt (defined_rename ρ p y).mp hy)]
  · intro i hi hreads y hy hK
    have hi' : i.rename ρ ∈ p.map (Instr.rename ρ) := List.mem_map_of_mem hi
    rw [run_of_mem h hi hy, run_of_mem hρ hi' hy]
    change sem i.op ((i.uses.map ρ).map _) y = _
    rw [List.map_map]
    congr 1
    refine List.map_congr_left fun u hu => ?_
    rcases hsame i hi y hy hK u hu with hkeep | ⟨hinput, hvalue⟩
    · rw [Function.comp_apply, hkeep]
      exact hreads u hu (hclosed i hi y hy hK u hu)
    · rw [Function.comp_apply, run_of_not_defined (mt (defined_rename ρ p _).mp hinput), hvalue]

/-- Instructions whose names no remaining instruction reads can go. -/
theorem run_filter {α : Type} {env : ι → V} {l : List α} {f : α → Instr ι κ}
    (h : Ordered (l.map f)) {keep : α → Bool}
    (hdead : ∀ a ∈ l, keep a = false → ∀ y ∈ (f a).defs,
      ∀ b ∈ l, keep b = true → y ∉ (f b).uses)
    {x : ι} (hx : ∀ a ∈ l, keep a = false → x ∉ (f a).defs) :
    run sem env ((l.filter keep).map f) x = run sem env (l.map f) x := by
  have hsub : ((l.filter keep).map f).Sublist (l.map f) := List.filter_sublist.map f
  revert hx
  refine h.names_induction (P := fun y => (∀ a ∈ l, keep a = false → y ∉ (f a).defs) →
    run sem env ((l.filter keep).map f) y = run sem env (l.map f) y) ?_ ?_ x
  · intro y hy _
    rw [run_of_not_defined hy, run_of_not_defined fun hdef => hy (hdef.mono hsub.subset)]
  · intro i hi hreads y hy hlive
    obtain ⟨a, ha, rfl⟩ := List.mem_map.mp hi
    have hkeep : keep a = true := by
      by_contra hgone
      exact hlive a ha (Bool.not_eq_true _ ▸ hgone) hy
    have hi' : f a ∈ (l.filter keep).map f :=
      List.mem_map_of_mem (List.mem_filter.mpr ⟨ha, hkeep⟩)
    rw [run_of_mem h hi hy, run_of_mem (h.sublist hsub) hi' hy]
    congr 1
    refine List.map_congr_left fun u hu => hreads u hu fun b hb hgone hu' => ?_
    exact hdead b hb hgone u hu' a ha hkeep hu

end Run

/-! ## What reaches a name -/

/-- The instruction that gives the first name reads the second. -/
def Reads (p : List (Instr ι κ)) (y x : ι) : Prop :=
  ∃ i ∈ p, y ∈ i.defs ∧ x ∈ i.uses

/-- When every operation gives the disjunction of what it reads, a name is true at the
end exactly when it reads, in any number of steps, an input that is true. -/
theorem run_any [DecidableEq ι] {sem : κ → List Bool → ι → Bool} {env : ι → Bool}
    {p : List (Instr ι κ)}
    (hsem : ∀ i ∈ p, ∀ args : List Bool, args.length = i.uses.length →
      ∀ x, sem i.op args x = args.any id)
    (h : Ordered p) (x : ι) :
    run sem env p x = true ↔
      ∃ z, Relation.ReflTransGen (Reads p) x z ∧ ¬ Defined p z ∧ env z = true := by
  refine h.names_induction (P := fun x => run sem env p x = true ↔
    ∃ z, Relation.ReflTransGen (Reads p) x z ∧ ¬ Defined p z ∧ env z = true) ?_ ?_ x
  · intro y hy
    rw [run_of_not_defined hy]
    constructor
    · intro htrue
      exact ⟨y, .refl, hy, htrue⟩
    · rintro ⟨z, hreach, -, htrue⟩
      rcases hreach.cases_head with rfl | ⟨w, ⟨i, hi, hyi, -⟩, -⟩
      · exact htrue
      · exact absurd ⟨i, hi, hyi⟩ hy
  · intro i hi hreads y hy
    rw [run_of_mem h hi hy, hsem i hi _ (List.length_map _), List.any_map, List.any_eq_true]
    constructor
    · rintro ⟨u, hu, htrue⟩
      obtain ⟨z, hreach, hz, henv⟩ := (hreads u hu).mp htrue
      exact ⟨z, hreach.head ⟨i, hi, hy, hu⟩, hz, henv⟩
    · rintro ⟨z, hreach, hz, henv⟩
      rcases hreach.cases_head with rfl | ⟨u, ⟨j, hj, hyj, hu⟩, hrest⟩
      · exact absurd ⟨i, hi, hy⟩ hz
      · obtain rfl := h.unique hi hj hy hyj
        exact ⟨u, hu, (hreads u hu).mpr ⟨z, hrest, hz, henv⟩⟩

end Dataflow
end Library
end FrigateXdna
