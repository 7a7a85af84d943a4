import FrigateXdna.Library.Program

/-!
# Programs that keep an invariant

A program keeps an invariant when each of its actions keeps it, whatever states that meet the
invariant the actions find, and it returns only what has a given property.  Programs that keep
one invariant may take turns.

Main results:

- Definition {lit}`Program.Keeps`: a program keeps an invariant.
- Theorem {lit}`Program.Keeps.bind`, {lit}`Program.Keeps.attempt`,
  {lit}`Program.Keeps.forEach`: the rules.
- Theorem {lit}`Pool.turn_keeps`: programs that take turns keep the invariant.
-/

namespace FrigateXdna
namespace Library

variable {σ α ε β γ : Type} {exec : α → σ → σ} {I : σ → Prop}

namespace Program

/-- Every action keeps the invariant, and every result has the property. -/
def Keeps (exec : α → σ → σ) (I : σ → Prop) (Q : β → Prop) : Program σ α ε β → Prop
  | ret b => Q b
  | raise _ => True
  | act a k => ∀ s, I s → I (exec a s) ∧ (k s).Keeps exec I Q

variable {Q : β → Prop} {Q' : γ → Prop}

/-- One program after another. -/
theorem Keeps.bind {p : Program σ α ε β} {f : β → Program σ α ε γ} (h : p.Keeps exec I Q)
    (hf : ∀ b, Q b → (f b).Keeps exec I Q') : (p >>= f).Keeps exec I Q' := by
  induction p with
  | ret b => exact hf b h
  | raise e => trivial
  | act a k ih => exact fun s hs => ⟨(h s hs).1, ih s (h s hs).2⟩

/-- A weaker property of the results. -/
theorem Keeps.weaken {Q₂ : β → Prop} {p : Program σ α ε β} (h : p.Keeps exec I Q)
    (hQ : ∀ b, Q b → Q₂ b) : p.Keeps exec I Q₂ := by
  induction p with
  | ret b => exact hQ b h
  | raise e => trivial
  | act a k ih => exact fun s hs => ⟨(h s hs).1, ih s (h s hs).2⟩

/-- A caught program. -/
theorem Keeps.attempt {p : Program σ α ε β} (h : p.Keeps exec I Q) :
    p.attempt.Keeps exec I fun r => ∀ b, r = .ok b → Q b := by
  induction p with
  | ret b =>
      rintro b' hb
      obtain rfl := Except.ok.inj hb
      exact h
  | raise e =>
      intro b hb
      contradiction
  | act a k ih => exact fun s hs => ⟨(h s hs).1, ih s (h s hs).2⟩

/-- A loop over a list. -/
theorem Keeps.forEach {items : List γ} {body : γ → Program σ α ε Unit}
    (h : ∀ x ∈ items, (body x).Keeps exec I fun _ => True) :
    (forEach items body).Keeps exec I fun _ => True := by
  induction items with
  | nil => trivial
  | cons x rest ih =>
      exact Keeps.bind (h x List.mem_cons_self) fun _ _ =>
        ih fun y hy => h y (List.mem_cons_of_mem x hy)

/-- A program all of whose actions keep the invariant. -/
theorem Keeps.of_only {P : α → Prop} (hP : ∀ a s, P a → I s → I (exec a s))
    {p : Program σ α ε β} (h : p.Only P) : p.Keeps exec I fun _ => True := by
  induction p with
  | ret b => trivial
  | raise e => trivial
  | act a k ih => exact fun s hs => ⟨hP a s h.1 hs, ih s (h.2 s)⟩

/-- The same program with other actions. -/
theorem Keeps.relabel {α' : Type} {f : α → α'} {exec' : α' → σ → σ}
    (hexec : ∀ a s, exec' (f a) s = exec a s) {p : Program σ α ε β}
    (h : p.Keeps exec I Q) : (p.relabel f).Keeps exec' I Q := by
  induction p with
  | ret b => exact h
  | raise e => trivial
  | act a k ih =>
      refine fun s hs => ⟨?_, ih s (h s hs).2⟩
      rw [hexec]
      exact (h s hs).1

/-- A program that runs alone keeps the invariant. -/
theorem Keeps.run {p : Program σ α ε β} (h : p.Keeps exec I Q) {s : σ} (hs : I s) :
    I (p.run exec s).1 ∧ ∀ b, (p.run exec s).2 = .ok b → Q b := by
  induction p generalizing s with
  | ret b =>
      refine ⟨hs, fun b' hb => ?_⟩
      obtain rfl := Except.ok.inj hb
      exact h
  | raise e => exact ⟨hs, fun b hb => by contradiction⟩
  | act a k ih => exact ih s (h s hs).2 (h s hs).1

end Program

namespace Pool

variable {τ : Type}

/-- The invariant holds, and every thread keeps it. -/
structure Keeps (exec : α → σ → σ) (I : σ → Prop) (P : Pool σ α ε τ) : Prop where
  holds : I P.shared
  threads : ∀ th ∈ P.threads, th.2.Keeps exec I fun _ => True

/-- **A turn of a thread keeps the invariant.** -/
theorem turn_keeps {P P' : Pool σ α ε τ} {i : Nat} (h : P.Keeps exec I)
    (hturn : P.turn exec i = some P') : P'.Keeps exec I := by
  unfold turn at hturn
  split at hturn
  · contradiction
  · rename_i t a k hi
    obtain rfl := Option.some.inj hturn
    obtain ⟨hI, hk⟩ := h.threads (t, .act a k) (List.mem_of_getElem? hi) P.shared h.holds
    refine ⟨hI, fun th hth => ?_⟩
    rcases List.mem_or_eq_of_mem_set hth with hmem | rfl
    · exact h.threads th hmem
    · exact hk
  · obtain rfl := Option.some.inj hturn
    exact ⟨h.holds, fun th hth => h.threads th (List.mem_of_mem_eraseIdx hth)⟩

end Pool
end Library
end FrigateXdna
