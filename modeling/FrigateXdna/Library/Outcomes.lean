import FrigateXdna.Library.Program

/-!
# The outcomes of a program among others

What a program may return when anything at all may happen to the shared state between its
actions.  What holds of every such outcome holds in every interleaving.

Main results:

- Definition {lit}`Program.Returns`: the possible outcomes.
- Theorem {lit}`returns_bind`: the outcomes of programs one after another.
- Theorem {lit}`returns_of_run`: what a run alone returns is a possible outcome.
-/

namespace FrigateXdna
namespace Library
namespace Program

variable {σ α ε β γ : Type}

/-- Whether a program may return a value, whatever state its actions find. -/
def Returns : Program σ α ε β → β → Prop
  | ret b, c => b = c
  | raise _, _ => False
  | act _ k, c => ∃ s, (k s).Returns c

@[simp]
theorem returns_ret {b c : β} : (ret b : Program σ α ε β).Returns c ↔ b = c :=
  Iff.rfl

@[simp]
theorem returns_pure {b c : β} : (pure b : Program σ α ε β).Returns c ↔ b = c :=
  Iff.rfl

@[simp]
theorem returns_raise {e : ε} {c : β} : (raise e : Program σ α ε β).Returns c ↔ False :=
  Iff.rfl

/-- **The outcomes of programs one after another.** -/
theorem returns_bind {p : Program σ α ε β} {f : β → Program σ α ε γ} {c : γ} :
    (p >>= f).Returns c ↔ ∃ b, p.Returns b ∧ (f b).Returns c := by
  induction p with
  | ret b =>
      change (f b).Returns c ↔ _
      simp
  | raise e =>
      change False ↔ _
      simp
  | act a k ih =>
      change (∃ s, (k s >>= f).Returns c) ↔ ∃ b, (∃ s, (k s).Returns b) ∧ _
      constructor
      · rintro ⟨s, h⟩
        obtain ⟨b, hb, hc⟩ := (ih s).mp h
        exact ⟨b, ⟨s, hb⟩, hc⟩
      · rintro ⟨b, ⟨s, hb⟩, hc⟩
        exact ⟨s, (ih s).mpr ⟨b, hb, hc⟩⟩

/-- **A run alone** returns a possible outcome. -/
theorem returns_of_run {exec : α → σ → σ} {p : Program σ α ε β} {s : σ} {c : β}
    (h : (p.run exec s).2 = .ok c) : p.Returns c := by
  induction p generalizing s with
  | ret b => exact Except.ok.inj h
  | raise e => contradiction
  | act a k ih => exact ⟨s, ih s h⟩

end Program
end Library
end FrigateXdna
