import FrigateXdna.Library.Transition

/-!
# Programs of atomic actions

A program performs atomic actions on a shared state one after another.  What it does
after an action may depend on the state the action found, and it ends with a result or
with an exception.  Run alone, it is a function of the state; run beside others, every
action may find a state that the others changed; cut short by a crash, it has performed
some of its first actions.

Main results:

- Theorem {lit}`Program.run_bind`: running programs one after another.
- Theorem {lit}`Program.Safe.bind`, {lit}`Program.Safe.attempt`: the rules of reasoning
  about a program under a rely condition.
- Theorem {lit}`Program.Safe.run`: a safe program that runs alone keeps the invariant.
- Theorem {lit}`Pool.turn_safe`: safe programs that take turns keep the invariant.
-/

namespace FrigateXdna
namespace Library

/-- A program over a shared state. -/
inductive Program (σ α ε β : Type)
  | ret (b : β)
  | raise (e : ε)
  | act (a : α) (k : σ → Program σ α ε β)

namespace Program

variable {σ α ε β γ : Type}

/-! ## Building programs -/

/-- One program after another; an exception ends both. -/
def bind (p : Program σ α ε β) (f : β → Program σ α ε γ) : Program σ α ε γ :=
  match p with
  | ret b => f b
  | raise e => raise e
  | act a k => act a fun s => (k s).bind f

instance : Monad (Program σ α ε) where
  pure := ret
  bind := bind

/-- Perform one action; the result is the state it found. -/
def perform (a : α) : Program σ α ε σ :=
  act a ret

/-- Catch every exception. -/
def attempt (p : Program σ α ε β) : Program σ α ε (Except ε β) :=
  match p with
  | ret b => ret (.ok b)
  | raise e => ret (.error e)
  | act a k => act a fun s => (k s).attempt

/-- Perform a program for each item of a list. -/
def forEach (items : List β) (body : β → Program σ α ε Unit) : Program σ α ε Unit :=
  match items with
  | [] => ret ()
  | x :: rest => (body x).bind fun _ => forEach rest body

/-- The same program with other actions. -/
def relabel {α' : Type} (f : α → α') (p : Program σ α ε β) : Program σ α' ε β :=
  match p with
  | ret b => ret b
  | raise e => raise e
  | act a k => act (f a) fun s => (k s).relabel f

/-! ## Running alone -/

section Run

variable (exec : α → σ → σ)

/-- Run a program to its end without interference. -/
def run (p : Program σ α ε β) (s : σ) : σ × Except ε β :=
  match p with
  | ret b => (s, .ok b)
  | raise e => (s, .error e)
  | act a k => (k s).run (exec a s)

/-- The state after at most {lit}`n` actions of a program. -/
def after (n : Nat) (p : Program σ α ε β) (s : σ) : σ :=
  match n, p with
  | 0, _ => s
  | _ + 1, ret _ => s
  | _ + 1, raise _ => s
  | n + 1, act a k => after n (k s) (exec a s)

@[simp]
theorem run_ret (b : β) (s : σ) : (ret b : Program σ α ε β).run exec s = (s, .ok b) :=
  rfl

@[simp]
theorem run_pure (b : β) (s : σ) :
    (pure b : Program σ α ε β).run exec s = (s, .ok b) :=
  rfl

@[simp]
theorem run_raise (e : ε) (s : σ) :
    (raise e : Program σ α ε β).run exec s = (s, .error e) :=
  rfl

@[simp]
theorem run_act (a : α) (k : σ → Program σ α ε β) (s : σ) :
    (act a k).run exec s = (k s).run exec (exec a s) :=
  rfl

@[simp]
theorem run_perform (a : α) (s : σ) :
    (perform a : Program σ α ε σ).run exec s = (exec a s, .ok s) :=
  rfl

/-- Running programs one after another. -/
theorem run_bind (p : Program σ α ε β) (f : β → Program σ α ε γ) (s : σ) :
    (p >>= f).run exec s =
      match p.run exec s with
      | (s', .ok b) => (f b).run exec s'
      | (s', .error e) => (s', .error e) := by
  induction p generalizing s with
  | ret b => rfl
  | raise e => rfl
  | act a k ih => exact ih s (exec a s)

theorem run_bind_of_ok {p : Program σ α ε β} {s s' : σ} {b : β}
    (h : p.run exec s = (s', .ok b)) (f : β → Program σ α ε γ) :
    (p >>= f).run exec s = (f b).run exec s' := by
  rw [run_bind, h]

theorem run_bind_of_error {p : Program σ α ε β} {s s' : σ} {e : ε}
    (h : p.run exec s = (s', .error e)) (f : β → Program σ α ε γ) :
    (p >>= f).run exec s = (s', .error e) := by
  rw [run_bind, h]

/-- A run ends after some number of actions. -/
theorem exists_run_eq_after (p : Program σ α ε β) (s : σ) :
    ∃ n, (p.run exec s).1 = p.after exec n s := by
  induction p generalizing s with
  | ret b => exact ⟨0, rfl⟩
  | raise e => exact ⟨0, rfl⟩
  | act a k ih =>
      obtain ⟨n, hn⟩ := ih s (exec a s)
      exact ⟨n + 1, hn⟩

/-- A caught program changes the state as the program does. -/
theorem run_attempt (p : Program σ α ε β) (s : σ) :
    p.attempt.run exec s = ((p.run exec s).1, .ok (p.run exec s).2) := by
  induction p generalizing s with
  | ret b => rfl
  | raise e => rfl
  | act a k ih => exact ih s (exec a s)

/-- What every action keeps, a run keeps. -/
theorem run_invariant {I : σ → Prop} (hact : ∀ a s, I s → I (exec a s))
    (p : Program σ α ε β) {s : σ} (hs : I s) : I (p.run exec s).1 := by
  induction p generalizing s with
  | ret b => exact hs
  | raise e => exact hs
  | act a k ih => exact ih s (hact a s hs)

/-- Running the same program with other actions. -/
theorem run_relabel {α' : Type} {f : α → α'} {exec' : α' → σ → σ}
    (hexec : ∀ a s, exec' (f a) s = exec a s) (p : Program σ α ε β) (s : σ) :
    (p.relabel f).run exec' s = p.run exec s := by
  induction p generalizing s with
  | ret b => rfl
  | raise e => rfl
  | act a k ih =>
      rw [relabel, run_act, run_act, hexec]
      exact ih s (exec a s)

end Run

/-! ## The actions of a program -/

/-- Every action the program may perform has a property. -/
def Only (P : α → Prop) : Program σ α ε β → Prop
  | ret _ => True
  | raise _ => True
  | act a k => P a ∧ ∀ s, (k s).Only P

section Only

variable {P : α → Prop}

theorem Only.bind {p : Program σ α ε β} {f : β → Program σ α ε γ} (h : p.Only P)
    (hf : ∀ b, (f b).Only P) : (p >>= f).Only P := by
  induction p with
  | ret b => exact hf b
  | raise e => trivial
  | act a k ih => exact ⟨h.1, fun s => ih s (h.2 s)⟩

theorem Only.attempt {p : Program σ α ε β} (h : p.Only P) : p.attempt.Only P := by
  induction p with
  | ret b => trivial
  | raise e => trivial
  | act a k ih => exact ⟨h.1, fun s => ih s (h.2 s)⟩

theorem Only.forEach {items : List γ} {body : γ → Program σ α ε Unit}
    (h : ∀ x ∈ items, (body x).Only P) : (forEach items body).Only P := by
  induction items with
  | nil => trivial
  | cons x rest ih =>
      exact Only.bind (h x List.mem_cons_self)
        fun _ => ih fun y hy => h y (List.mem_cons_of_mem x hy)

/-- A weaker property. -/
theorem Only.weaken {P' : α → Prop} (hP : ∀ a, P a → P' a) {p : Program σ α ε β}
    (h : p.Only P) : p.Only P' := by
  induction p with
  | ret b => trivial
  | raise e => trivial
  | act a k ih => exact ⟨hP a h.1, fun s => ih s (h.2 s)⟩

/-- What actions with the property keep, a run keeps. -/
theorem Only.run {exec : α → σ → σ} {I : σ → Prop}
    (hact : ∀ a s, P a → I s → I (exec a s)) {p : Program σ α ε β} (h : p.Only P) {s : σ}
    (hs : I s) : I (p.run exec s).1 := by
  induction p generalizing s with
  | ret b => exact hs
  | raise e => exact hs
  | act a k ih => exact ih s (h.2 s) (hact a s h.1 hs)

end Only

/-! ## Safety under a rely condition -/

/-- What others may do to the state between two actions, and what is known of every
state in between. -/
structure Rely (σ : Type) where
  holds : σ → Prop
  le : σ → σ → Prop
  refl : ∀ s, le s s
  trans : ∀ s t u, le s t → le t u → le s u

section Safe

variable (exec : α → σ → σ) (R : Rely σ) (G : σ → α → Prop)

/-- From this state on, whatever others do meanwhile, every action the program performs
is allowed, and its result meets the postcondition. -/
def Safe (p : Program σ α ε β) (Q : σ → β → Prop) (s : σ) : Prop :=
  match p with
  | ret b => ∀ s', R.le s s' → R.holds s' → Q s' b
  | raise _ => True
  | act a k => ∀ s', R.le s s' → R.holds s' → G s' a ∧ (k s').Safe Q (exec a s')

variable {exec R G} {Q : σ → β → Prop}

/-- What others do keeps a program safe. -/
theorem Safe.mono {p : Program σ α ε β} {s t : σ} (h : p.Safe exec R G Q s)
    (hle : R.le s t) : p.Safe exec R G Q t := by
  cases p with
  | ret b => exact fun s' hs' hI => h s' (R.trans _ _ _ hle hs') hI
  | raise e => trivial
  | act a k => exact fun s' hs' hI => h s' (R.trans _ _ _ hle hs') hI

/-- A program is safe when it is safe from every later state. -/
theorem Safe.of_later {p : Program σ α ε β} {s : σ}
    (h : ∀ s', R.le s s' → R.holds s' → p.Safe exec R G Q s') :
    p.Safe exec R G Q s := by
  cases p with
  | ret b => exact fun s' hs' hI => h s' hs' hI s' (R.refl s') hI
  | raise e => trivial
  | act a k => exact fun s' hs' hI => h s' hs' hI s' (R.refl s') hI

/-- A weaker postcondition. -/
theorem Safe.weaken {p : Program σ α ε β} {Q' : σ → β → Prop} {s : σ}
    (h : p.Safe exec R G Q s) (hQ : ∀ s b, R.holds s → Q s b → Q' s b) :
    p.Safe exec R G Q' s := by
  induction p generalizing s with
  | ret b => exact fun s' hs' hI => hQ s' b hI (h s' hs' hI)
  | raise e => trivial
  | act a k ih =>
      intro s' hs' hI
      obtain ⟨hG, hk⟩ := h s' hs' hI
      exact ⟨hG, ih s' hk⟩

/-- One program after another. -/
theorem Safe.bind {p : Program σ α ε β} {f : β → Program σ α ε γ}
    {Q' : σ → γ → Prop} {s : σ} (h : p.Safe exec R G Q s)
    (hf : ∀ b t, R.holds t → Q t b → (f b).Safe exec R G Q' t) :
    (p >>= f).Safe exec R G Q' s := by
  induction p generalizing s with
  | ret b => exact Safe.of_later fun s' hs' hI => hf b s' hI (h s' hs' hI)
  | raise e => trivial
  | act a k ih =>
      intro s' hs' hI
      obtain ⟨hG, hk⟩ := h s' hs' hI
      exact ⟨hG, ih s' hk⟩

/-- A caught program. -/
theorem Safe.attempt {p : Program σ α ε β} {s : σ} (h : p.Safe exec R G Q s) :
    p.attempt.Safe exec R G (fun t r => ∀ b, r = .ok b → Q t b) s := by
  induction p generalizing s with
  | ret b =>
      intro s' hs' hI b' hb
      obtain rfl := Except.ok.inj hb
      exact h s' hs' hI
  | raise e => exact fun s' _ _ b hb => by contradiction
  | act a k ih =>
      intro s' hs' hI
      obtain ⟨hG, hk⟩ := h s' hs' hI
      exact ⟨hG, ih s' hk⟩

/-- A single action that is allowed in every later state. -/
theorem Safe.perform {a : α} {Q : σ → σ → Prop} {s : σ}
    (h : ∀ s', R.le s s' → R.holds s' →
      G s' a ∧ ∀ t, R.le (exec a s') t → R.holds t → Q t s') :
    (perform a : Program σ α ε σ).Safe exec R G Q s :=
  fun s' hs' hI => ⟨(h s' hs' hI).1, (h s' hs' hI).2⟩

/-- A program for each item of a list. -/
theorem Safe.forEach {items : List γ} {body : γ → Program σ α ε Unit} {s : σ}
    (h : ∀ x ∈ items, ∀ t, R.holds t →
      (body x).Safe exec R G (fun _ _ => True) t) :
    (forEach items body).Safe exec R G (fun _ _ => True) s := by
  induction items generalizing s with
  | nil => exact fun _ _ _ => trivial
  | cons x rest ih =>
      refine Safe.bind (Safe.of_later fun t _ hI => h x List.mem_cons_self t hI) ?_
      intro _ t _ _
      exact ih fun y hy => h y (List.mem_cons_of_mem x hy)

/-- The same program with other actions. -/
theorem Safe.relabel {α' : Type} {f : α → α'} {exec' : α' → σ → σ}
    {G' : σ → α' → Prop} (hexec : ∀ a s, exec' (f a) s = exec a s)
    (hG : ∀ s a, G s a → G' s (f a)) {p : Program σ α ε β} {s : σ}
    (h : p.Safe exec R G Q s) : (p.relabel f).Safe exec' R G' Q s := by
  induction p generalizing s with
  | ret b => exact h
  | raise e => trivial
  | act a k ih =>
      intro s' hs' hI
      obtain ⟨hallowed, hk⟩ := h s' hs' hI
      refine ⟨hG s' a hallowed, ?_⟩
      rw [hexec]
      exact ih s' hk

/-- Allowed actions keep the invariant and do only what others rely on. -/
def Guarantees (exec : α → σ → σ) (R : Rely σ) (G : σ → α → Prop) : Prop :=
  ∀ s a, R.holds s → G s a → R.holds (exec a s) ∧ R.le s (exec a s)

/-- One program after another, which knows that nothing was taken away meanwhile. -/
theorem Safe.step (hG : Guarantees exec R G) {p : Program σ α ε β}
    {f : β → Program σ α ε γ} {Q' : σ → γ → Prop} {s : σ} (h : p.Safe exec R G Q s)
    (hf : ∀ b t, R.le s t → R.holds t → Q t b → (f b).Safe exec R G Q' t) :
    (p >>= f).Safe exec R G Q' s := by
  induction p generalizing s with
  | ret b => exact Safe.of_later fun s' hs' hI => hf b s' hs' hI (h s' hs' hI)
  | raise e => trivial
  | act a k ih =>
      intro s' hs' hI
      obtain ⟨hallowed, hk⟩ := h s' hs' hI
      obtain ⟨-, hle⟩ := hG s' a hI hallowed
      refine ⟨hallowed, ih s' hk fun b t ht => hf b t ?_⟩
      exact R.trans _ _ _ (R.trans _ _ _ hs' hle) ht

/-- A program for each item of a list, which knows that nothing was taken away
meanwhile. -/
theorem Safe.forEach_step (hG : Guarantees exec R G) {items : List γ}
    {body : γ → Program σ α ε Unit} {s : σ}
    (h : ∀ x ∈ items, ∀ t, R.le s t → R.holds t →
      (body x).Safe exec R G (fun _ _ => True) t) :
    (Program.forEach items body).Safe exec R G (fun _ _ => True) s := by
  induction items generalizing s with
  | nil => exact fun _ _ _ => trivial
  | cons x rest ih =>
      refine Safe.step hG
        (Safe.of_later fun t hle hI => h x List.mem_cons_self t hle hI) ?_
      intro _ t hle _ _
      refine ih fun y hy u hle' => ?_
      exact h y (List.mem_cons_of_mem x hy) u (R.trans _ _ _ hle hle')

/-- A safe program that runs alone keeps the invariant and ends in its postcondition. -/
theorem Safe.run (hG : Guarantees exec R G) {p : Program σ α ε β} {s : σ}
    (h : p.Safe exec R G Q s) (hs : R.holds s) :
    R.holds (p.run exec s).1 ∧ R.le s (p.run exec s).1 ∧
      ∀ b, (p.run exec s).2 = .ok b → Q (p.run exec s).1 b := by
  induction p generalizing s with
  | ret b =>
      refine ⟨hs, R.refl s, fun b' hb => ?_⟩
      obtain rfl := Except.ok.inj hb
      exact h s (R.refl s) hs
  | raise e => exact ⟨hs, R.refl s, fun b hb => by contradiction⟩
  | act a k ih =>
      obtain ⟨hallowed, hk⟩ := h s (R.refl s) hs
      obtain ⟨hI, hle⟩ := hG s a hs hallowed
      obtain ⟨hI', hle', hQ⟩ := ih s hk hI
      exact ⟨hI', R.trans _ _ _ hle hle', hQ⟩

/-- What allowed actions keep, and how they change the state, holds after every action of
a safe program that runs alone. -/
theorem Safe.after {E : σ → σ → Prop} (hrefl : ∀ s, E s s)
    (htrans : ∀ s t u, E s t → E t u → E s u)
    (hstep : ∀ s a, R.holds s → G s a → R.holds (exec a s) ∧ E s (exec a s))
    {p : Program σ α ε β} {s : σ} (h : p.Safe exec R G Q s) (hs : R.holds s) (n : Nat) :
    R.holds (p.after exec n s) ∧ E s (p.after exec n s) := by
  induction n generalizing p s with
  | zero => exact ⟨hs, hrefl s⟩
  | succ n ih =>
      cases p with
      | ret b => exact ⟨hs, hrefl s⟩
      | raise e => exact ⟨hs, hrefl s⟩
      | act a k =>
          obtain ⟨hallowed, hk⟩ := h s (R.refl s) hs
          obtain ⟨hI, hE⟩ := hstep s a hs hallowed
          obtain ⟨hI', hE'⟩ := ih hk hI
          exact ⟨hI', htrans _ _ _ hE hE'⟩

end Safe

/-- Others may do anything that keeps the invariant. -/
def Rely.within (I : σ → Prop) : Rely σ where
  holds := I
  le _ _ := True
  refl _ := trivial
  trans _ _ _ _ _ := trivial

/-- Nobody else acts. -/
def Rely.alone (I : σ → Prop) : Rely σ where
  holds := I
  le := Eq
  refl _ := rfl
  trans _ _ _ := Eq.trans

/-- A program for each item that never raises keeps an invariant, and what it makes true
of each item stays true. -/
theorem run_forEach (exec : α → σ → σ) {I : σ → Prop} {T : γ → σ → Prop} (items : List γ)
    (body : γ → Program σ α ε Unit)
    (h : ∀ x ∈ items, ∀ s, I s → ∃ t, (body x).run exec s = (t, .ok ()) ∧ I t ∧ T x t ∧
      ∀ y, T y s → T y t) {s : σ} (hs : I s) :
    ∃ t, (forEach items body).run exec s = (t, .ok ()) ∧ I t ∧ (∀ x ∈ items, T x t) ∧
      ∀ y, T y s → T y t := by
  induction items generalizing s with
  | nil => exact ⟨s, rfl, hs, by simp, fun _ hy => hy⟩
  | cons x rest ih =>
      obtain ⟨t, hrun, ht, hx, hkeep⟩ := h x List.mem_cons_self s hs
      obtain ⟨u, hrest, hu, hall, hkeep'⟩ :=
        ih (fun y hy => h y (List.mem_cons_of_mem x hy)) ht
      refine ⟨u, (run_bind_of_ok exec hrun _).trans hrest, hu, ?_, fun y hy =>
        hkeep' y (hkeep y hy)⟩
      intro y hy
      rcases List.mem_cons.mp hy with rfl | hmem
      · exact hkeep' _ hx
      · exact hall y hmem

end Program

/-! ## Programs that take turns -/

/-- Several programs on one shared state, each with a tag. -/
structure Pool (σ α ε τ : Type) where
  shared : σ
  threads : List (τ × Program σ α ε Unit)

namespace Pool

variable {σ α ε τ : Type} (exec : α → σ → σ)

/-- The action a thread performs next. -/
def next (P : Pool σ α ε τ) (i : Nat) : Option α :=
  match P.threads[i]? with
  | some (_, .act a _) => some a
  | _ => none

/-- A thread performs its next action; a thread that ended is forgotten. -/
def turn (i : Nat) (P : Pool σ α ε τ) : Option (Pool σ α ε τ) :=
  match P.threads[i]? with
  | none => none
  | some (t, .act a k) =>
      some { shared := exec a P.shared, threads := P.threads.set i (t, k P.shared) }
  | some _ => some { P with threads := P.threads.eraseIdx i }

variable {exec} {R : Program.Rely σ} {G : τ → σ → α → Prop}

/-- The invariant holds, and every thread is safe from here on; what a thread may do is
told by its tag. -/
structure Safe (exec : α → σ → σ) (R : Program.Rely σ) (G : τ → σ → α → Prop)
    (P : Pool σ α ε τ) : Prop where
  holds : R.holds P.shared
  threads : ∀ th ∈ P.threads, th.2.Safe exec R (G th.1) (fun _ _ => True) P.shared

/-- What the outside does to the state keeps the threads safe. -/
theorem Safe.outside {P : Pool σ α ε τ} (h : P.Safe exec R G) {s : σ}
    (hs : R.holds s) (hle : R.le P.shared s) : { P with shared := s }.Safe exec R G where
  holds := hs
  threads th hth := (h.threads th hth).mono hle

/-- A thread that starts in a safe state joins the pool. -/
theorem Safe.start {P : Pool σ α ε τ} (h : P.Safe exec R G)
    {th : τ × Program σ α ε Unit}
    (hth : th.2.Safe exec R (G th.1) (fun _ _ => True) P.shared) :
    { P with threads := P.threads ++ [th] }.Safe exec R G where
  holds := h.holds
  threads := by
    intro other hother
    rcases List.mem_append.mp hother with hmem | hnew
    · exact h.threads other hmem
    · obtain rfl := List.mem_singleton.mp hnew
      exact hth

/-- **A turn of a safe thread keeps the pool safe**, if its action, which is allowed, keeps the
invariant and does what the others rely on. -/
theorem turn_safe {P P' : Pool σ α ε τ} {i : Nat} (h : P.Safe exec R G)
    (hG : ∀ t a k, P.threads[i]? = some (t, .act a k) → G t P.shared a →
      R.holds (exec a P.shared) ∧ R.le P.shared (exec a P.shared))
    (hturn : P.turn exec i = some P') : P'.Safe exec R G := by
  unfold turn at hturn
  split at hturn
  · contradiction
  · rename_i t a k hi
    obtain rfl := Option.some.inj hturn
    obtain ⟨hallowed, hk⟩ := h.threads (t, .act a k) (List.mem_of_getElem? hi) P.shared
      (R.refl _) h.holds
    obtain ⟨hI, hle⟩ := hG t a k hi hallowed
    refine ⟨hI, fun th hth => ?_⟩
    rcases List.mem_or_eq_of_mem_set hth with hmem | rfl
    · exact (h.threads th hmem).mono hle
    · exact hk
  · obtain rfl := Option.some.inj hturn
    exact ⟨h.holds, fun th hth => h.threads th (List.mem_of_mem_eraseIdx hth)⟩

end Pool
end Library
end FrigateXdna
