import FrigateXdna.Library.Program

/-!
# Programs that meet faults

A program whose environment raises at some of its actions, the actions that a run performs,
and a loop over items, each of which has its turn.

Main results:

- Theorem {lit}`performed_bind`: the actions of programs one after another.
- Theorem {lit}`run_forEach_ok_iff`: a loop ends normally when every turn does.
- Theorem {lit}`mem_performed_forEach`: what a turn performs, a loop that ends normally
  performs.
-/

namespace FrigateXdna
namespace Library
namespace Program

variable {σ α ε β γ : Type}

/-! ## Faults -/

/-- The program in an environment that raises at some actions instead of performing them. -/
def failOn (fault : α → Option ε) : Program σ α ε β → Program σ α ε β
  | ret b => ret b
  | raise e => raise e
  | act a k =>
      match fault a with
      | some e => raise e
      | none => act a fun s => (k s).failOn fault

/-- Without faults the program is as it was. -/
@[simp]
theorem failOn_none (p : Program σ α ε β) : p.failOn (fun _ => none) = p := by
  induction p with
  | ret b => rfl
  | raise e => rfl
  | act a k ih => exact congrArg (act a) (funext ih)

theorem failOn_bind (fault : α → Option ε) (p : Program σ α ε β) (f : β → Program σ α ε γ) :
    (p >>= f).failOn fault = p.failOn fault >>= fun b => (f b).failOn fault := by
  induction p with
  | ret b => rfl
  | raise e => rfl
  | act a k ih =>
      change failOn fault (act a fun s => k s >>= f) = failOn fault (act a k) >>= _
      rw [failOn, failOn]
      cases fault a with
      | some e => rfl
      | none => exact congrArg (act a) (funext ih)

/-- A program does no other actions for its faults. -/
theorem Only.failOn {P : α → Prop} {p : Program σ α ε β} (h : p.Only P)
    (fault : α → Option ε) : (p.failOn fault).Only P := by
  induction p with
  | ret b => trivial
  | raise e => trivial
  | act a k ih =>
      rw [Program.failOn]
      cases fault a with
      | some e => trivial
      | none => exact ⟨h.1, fun s => ih s (h.2 s)⟩

/-! ## The actions of a run -/

section Run

variable (exec : α → σ → σ)

/-- The actions that a run performs. -/
def performed (p : Program σ α ε β) (s : σ) : List α :=
  match p with
  | ret _ => []
  | raise _ => []
  | act a k => a :: (k s).performed (exec a s)

/-- **The actions of programs one after another.** -/
theorem performed_bind (p : Program σ α ε β) (f : β → Program σ α ε γ) (s : σ) :
    (p >>= f).performed exec s =
      p.performed exec s ++
        match p.run exec s with
        | (s', .ok b) => (f b).performed exec s'
        | (_, .error _) => [] := by
  induction p generalizing s with
  | ret b => rfl
  | raise e => rfl
  | act a k ih =>
      change a :: (k s >>= f).performed exec (exec a s) = _
      rw [ih s (exec a s)]
      rfl

theorem performed_bind_of_ok {p : Program σ α ε β} {s s' : σ} {b : β}
    (h : p.run exec s = (s', .ok b)) (f : β → Program σ α ε γ) :
    (p >>= f).performed exec s = p.performed exec s ++ (f b).performed exec s' := by
  rw [performed_bind, h]

/-- A second program that performs nothing. -/
theorem performed_bind_quiet {p : Program σ α ε β} {f : β → Program σ α ε γ}
    (hf : ∀ b t, (f b).performed exec t = []) (s : σ) :
    (p >>= f).performed exec s = p.performed exec s := by
  rw [performed_bind]
  cases hrun : p.run exec s with
  | mk t result =>
      cases result with
      | ok b => simp [hf]
      | error e => simp

/-- The first of two programs performs its actions in any case. -/
theorem mem_performed_bind {p : Program σ α ε β} {a : α} {s : σ}
    (h : a ∈ p.performed exec s) (f : β → Program σ α ε γ) :
    a ∈ (p >>= f).performed exec s := by
  rw [performed_bind]
  exact List.mem_append_left _ h

/-- A caught program performs the same actions. -/
@[simp]
theorem performed_attempt (p : Program σ α ε β) (s : σ) :
    p.attempt.performed exec s = p.performed exec s := by
  induction p generalizing s with
  | ret b => rfl
  | raise e => rfl
  | act a k ih => exact congrArg (a :: ·) (ih s (exec a s))

/-- The actions under other names. -/
theorem performed_relabel {α' : Type} {f : α → α'} {exec' : α' → σ → σ}
    (hexec : ∀ a s, exec' (f a) s = exec a s) (p : Program σ α ε β) (s : σ) :
    (p.relabel f).performed exec' s = (p.performed exec s).map f := by
  induction p generalizing s with
  | ret b => rfl
  | raise e => rfl
  | act a k ih =>
      rw [relabel, performed, hexec, ih s (exec a s)]
      rfl

/-! ## Turns -/

/-- The turn of an item in a loop: the states before and after it. -/
structure Turn (σ γ : Type) where
  item : γ
  before : σ
  after : σ

/-- The turns of the items, as far as no exception ends the loop. -/
def turns (body : γ → Program σ α ε Unit) : List γ → σ → List (Turn σ γ)
  | [], _ => []
  | x :: rest, s =>
      ⟨x, s, ((body x).run exec s).1⟩ :: turns body rest ((body x).run exec s).1

variable {exec} {body : γ → Program σ α ε Unit}

theorem run_forEach_cons (x : γ) (rest : List γ) (s : σ) :
    (forEach (x :: rest) body).run exec s =
      match (body x).run exec s with
      | (s', .ok _) => (forEach rest body).run exec s'
      | (s', .error e) => (s', .error e) := by
  change (body x >>= fun _ => forEach rest body).run exec s = _
  rw [run_bind]
  rcases (body x).run exec s with ⟨s', r⟩
  cases r with
  | ok u => rfl
  | error e => rfl

/-- **A loop ends normally when every turn does.** -/
theorem run_forEach_ok_iff (items : List γ) (s : σ) :
    ((forEach items body).run exec s).2 = .ok () ↔
      ∀ t ∈ turns exec body items s, ((body t.item).run exec t.before).2 = .ok () := by
  induction items generalizing s with
  | nil => simp [turns, forEach]
  | cons x rest ih =>
      rw [run_forEach_cons, turns, List.forall_mem_cons]
      rcases hrun : (body x).run exec s with ⟨s', r⟩
      cases r with
      | ok u => simp [ih]
      | error e => simp

/-- What a turn performs, a loop that ends normally performs. -/
theorem mem_performed_forEach {items : List γ} {s : σ}
    (hok : ((forEach items body).run exec s).2 = .ok ()) {t : Turn σ γ}
    (ht : t ∈ turns exec body items s) {a : α}
    (ha : a ∈ (body t.item).performed exec t.before) :
    a ∈ (forEach items body).performed exec s := by
  induction items generalizing s with
  | nil => contradiction
  | cons x rest ih =>
      have hperformed : (forEach (x :: rest) body).performed exec s = _ :=
        performed_bind exec (body x) (fun _ => forEach rest body) s
      rw [run_forEach_cons] at hok
      rw [hperformed]
      rcases hrun : (body x).run exec s with ⟨s', r⟩
      rw [hrun] at hok
      cases r with
      | error e => contradiction
      | ok u =>
          rw [turns, hrun] at ht
          rcases List.mem_cons.mp ht with rfl | ht
          · exact List.mem_append_left _ ha
          · exact List.mem_append_right _ (ih hok ht)

/-- What every turn keeps holds before and after each turn and at the end of the loop. -/
theorem turns_invariant {I : σ → Prop} {items : List γ}
    (h : ∀ x ∈ items, ∀ s, I s → I ((body x).run exec s).1) {s : σ} (hs : I s) :
    (∀ t ∈ turns exec body items s, I t.before ∧ I t.after) ∧
      I ((forEach items body).run exec s).1 := by
  induction items generalizing s with
  | nil => exact ⟨fun t ht => absurd ht List.not_mem_nil, hs⟩
  | cons x rest ih =>
      have hx := h x List.mem_cons_self s hs
      obtain ⟨hturns, hend⟩ := ih (fun y hy => h y (List.mem_cons_of_mem x hy)) hx
      constructor
      · intro t ht
        rcases List.mem_cons.mp ht with rfl | ht
        · exact ⟨hs, hx⟩
        · exact hturns t ht
      · rw [run_forEach_cons]
        rcases hrun : (body x).run exec s with ⟨s', r⟩
        rw [hrun] at hend hx
        cases r with
        | ok u => exact hend
        | error e => exact hx

/-- A turn belongs to an item, and is a run of its program. -/
theorem turn_of_mem {items : List γ} {s : σ} {t : Turn σ γ}
    (ht : t ∈ turns exec body items s) :
    t.item ∈ items ∧ t.after = ((body t.item).run exec t.before).1 := by
  induction items generalizing s with
  | nil => contradiction
  | cons x rest ih =>
      rcases List.mem_cons.mp ht with rfl | ht
      · exact ⟨List.mem_cons_self, rfl⟩
      · obtain ⟨hmem, hafter⟩ := ih ht
        exact ⟨List.mem_cons_of_mem x hmem, hafter⟩

/-- Every item has its turn. -/
theorem exists_turn_of_mem {items : List γ} {x : γ} (hx : x ∈ items) (s : σ) :
    ∃ t ∈ turns exec body items s, t.item = x := by
  induction items generalizing s with
  | nil => contradiction
  | cons y rest ih =>
      rcases List.mem_cons.mp hx with rfl | hx
      · exact ⟨_, List.mem_cons_self, rfl⟩
      · obtain ⟨t, ht, hitem⟩ := ih hx ((body y).run exec s).1
        exact ⟨t, List.mem_cons_of_mem _ ht, hitem⟩

/-- What holds of an item after its turn, and is kept by the turns after it, holds at the end
of a loop that ends normally. -/
theorem turn_lasts {I : σ → Prop} {T : γ → σ → Prop} {items : List γ}
    (hinv : ∀ x ∈ items, ∀ s, I s → I ((body x).run exec s).1)
    (hkeep : items.Pairwise fun x y => ∀ s, I s → T x s → T x ((body y).run exec s).1)
    {s : σ} (hs : I s) (hok : ((forEach items body).run exec s).2 = .ok ()) {t : Turn σ γ}
    (ht : t ∈ turns exec body items s) (hT : T t.item t.after) :
    T t.item ((forEach items body).run exec s).1 := by
  induction items generalizing s with
  | nil => contradiction
  | cons x rest ih =>
      rw [List.pairwise_cons] at hkeep
      have hinv' : ∀ y ∈ rest, ∀ s, I s → I ((body y).run exec s).1 := fun y hy =>
        hinv y (List.mem_cons_of_mem x hy)
      have hx := hinv x List.mem_cons_self s hs
      rw [run_forEach_cons] at hok ⊢
      rw [turns] at ht
      rcases hrun : (body x).run exec s with ⟨s', r⟩
      rw [hrun] at hok ht hx
      cases r with
      | error e => contradiction
      | ok u =>
          rcases List.mem_cons.mp ht with rfl | ht
          · have hrest : ∀ y ∈ rest, ∀ u, I u ∧ T x u →
                I ((body y).run exec u).1 ∧ T x ((body y).run exec u).1 := fun y hy u hu =>
              ⟨hinv' y hy u hu.1, hkeep.1 y hy u hu.1 hu.2⟩
            exact (turns_invariant hrest ⟨hx, hT⟩).2.2
          · exact ih hinv' hkeep.2 hx hok ht

end Run
end Program
end Library
end FrigateXdna
