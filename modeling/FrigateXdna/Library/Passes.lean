import Mathlib.Data.List.Basic

/-!
# Passes that may raise

A loop takes the items of a list one after another, changes a state at each and stops at the
first item that raises.  When the outcome at an item depends on the item alone, as long as the
loop has come that far, the whole pass goes through exactly when every item does.

Main results:

- Theorem {lit}`pass_cases`: a pass goes through when every item is good, and raises otherwise.
- Theorem {lit}`pass_idle`: a pass that changes nothing at any item changes nothing.
-/

namespace FrigateXdna
namespace Library

variable {σ α ε : Type*} {f : σ → α → Except ε σ}

/-- What is known of a pass when the items {lit}`done` have been handled and the items
{lit}`rest` have not. -/
theorem pass_cases_from {xs : List α} {good : α → Prop} {I : List α → σ → Prop}
    (hstep : ∀ pre x post s, xs = pre ++ x :: post → (∀ y ∈ pre, good y) → I pre s →
      (good x ∧ ∃ t, f s x = .ok t ∧ I (pre ++ [x]) t) ∨ (¬good x ∧ ∃ e, f s x = .error e))
    {done rest : List α} {s : σ} (hxs : xs = done ++ rest) (hdone : ∀ y ∈ done, good y)
    (hI : I done s) :
    ((∀ x ∈ rest, good x) ∧ ∃ t, rest.foldlM f s = .ok t ∧ I xs t) ∨
      ((¬∀ x ∈ rest, good x) ∧ ∃ e, rest.foldlM f s = .error e) := by
  induction rest generalizing done s with
  | nil =>
      rw [List.append_nil] at hxs
      subst hxs
      exact .inl ⟨by simp, s, rfl, hI⟩
  | cons x rest ih =>
      rcases hstep done x rest s hxs hdone hI with ⟨hgood, t, ht, hIt⟩ | ⟨hbad, e, he⟩
      · have hdone' : ∀ y ∈ done ++ [x], good y := by
          intro y hy
          rcases List.mem_append.mp hy with hy | hy
          · exact hdone y hy
          · rw [List.mem_singleton.mp hy]
            exact hgood
        have hfold : (x :: rest).foldlM f s = rest.foldlM f t := by
          rw [List.foldlM_cons, ht]
          rfl
        rw [hfold, List.forall_mem_cons]
        rcases ih (by rw [hxs, List.append_assoc]; rfl) hdone' hIt with ⟨hall, hok⟩ | ⟨hnot, herr⟩
        · exact .inl ⟨⟨hgood, hall⟩, hok⟩
        · exact .inr ⟨fun h => hnot h.2, herr⟩
      · refine .inr ⟨fun h => hbad (h x List.mem_cons_self), e, ?_⟩
        rw [List.foldlM_cons, he]
        rfl

/-- **A pass goes through when every item is good, and raises otherwise.** -/
theorem pass_cases {xs : List α} {good : α → Prop} {I : List α → σ → Prop} {s : σ}
    (hstep : ∀ pre x post s, xs = pre ++ x :: post → (∀ y ∈ pre, good y) → I pre s →
      (good x ∧ ∃ t, f s x = .ok t ∧ I (pre ++ [x]) t) ∨ (¬good x ∧ ∃ e, f s x = .error e))
    (hI : I [] s) :
    ((∀ x ∈ xs, good x) ∧ ∃ t, xs.foldlM f s = .ok t ∧ I xs t) ∨
      ((¬∀ x ∈ xs, good x) ∧ ∃ e, xs.foldlM f s = .error e) :=
  pass_cases_from hstep (List.nil_append xs).symm (by simp) hI

/-- A pass that changes nothing at any item changes nothing. -/
theorem pass_idle {xs : List α} {s : σ} (h : ∀ x ∈ xs, f s x = .ok s) :
    xs.foldlM f s = .ok s := by
  induction xs with
  | nil => rfl
  | cons x rest ih =>
      rw [List.foldlM_cons, h x List.mem_cons_self]
      exact ih fun y hy => h y (List.mem_cons_of_mem x hy)

end Library
end FrigateXdna
