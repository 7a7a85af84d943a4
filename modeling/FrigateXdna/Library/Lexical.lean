import Mathlib.Data.List.Count
import Mathlib.Data.List.Induction

/-!
# Lexical paths

A path is a sequence of steps, down to a name or up to the parent.  Where it leads, without a
look at any file system, is a place: some levels up, and from there down along names.  At a
root there is nothing above.

Main results:

- Definition {lit}`Place.walk`: where steps lead from a place.
- Theorem {lit}`Place.walk_eq_follow`: the place alone decides where its steps lead elsewhere.
- Theorem {lit}`Place.walk_steps`: the steps of a place lead to it.
- Theorem {lit}`Place.eq_names_of_append`: what leads on from a name leads down.
- Theorem {lit}`Place.ups_eq_zero_iff`: a path that never climbs.
-/

namespace FrigateXdna
namespace Library

/-- One step of a path. -/
inductive Step (α : Type)
  | up
  | name (a : α)
deriving DecidableEq, Repr

/-- Whether a step goes down. -/
def Step.isName {α : Type} : Step α → Bool
  | .up => false
  | .name _ => true

@[simp]
theorem Step.isName_up {α : Type} : (Step.up : Step α).isName = false :=
  rfl

@[simp]
theorem Step.isName_name {α : Type} (a : α) : (Step.name a).isName = true :=
  rfl

/-- Where steps lead: levels up, and names down from there. -/
structure Place (α : Type) where
  ups : Nat
  names : List α
deriving DecidableEq, Repr

namespace Place

variable {α : Type}

/-- Where a path starts. -/
def start : Place α :=
  ⟨0, []⟩

/-- The parent of a place; nothing is above a root. -/
def parent (rooted : Bool) (p : Place α) : Place α :=
  if p.names.isEmpty then (if rooted then p else ⟨p.ups + 1, []⟩)
  else ⟨p.ups, p.names.dropLast⟩

/-- One step from a place. -/
def step (rooted : Bool) (p : Place α) : Step α → Place α
  | .up => p.parent rooted
  | .name a => ⟨p.ups, p.names ++ [a]⟩

/-- Where steps lead from a place. -/
def walk (rooted : Bool) (p : Place α) (steps : List (Step α)) : Place α :=
  steps.foldl (step rooted) p

/-- The steps to a place. -/
def steps (p : Place α) : List (Step α) :=
  List.replicate p.ups .up ++ p.names.map .name

/-- Go up and down as another place does. -/
def follow (rooted : Bool) (p q : Place α) : Place α :=
  if q.ups ≤ p.names.length then ⟨p.ups, p.names.take (p.names.length - q.ups) ++ q.names⟩
  else ⟨if rooted then p.ups else p.ups + (q.ups - p.names.length), q.names⟩

@[simp]
theorem walk_nil (rooted : Bool) (p : Place α) : p.walk rooted [] = p :=
  rfl

@[simp]
theorem walk_cons (rooted : Bool) (p : Place α) (s : Step α) (rest : List (Step α)) :
    p.walk rooted (s :: rest) = (p.step rooted s).walk rooted rest :=
  rfl

theorem walk_append (rooted : Bool) (p : Place α) (front rest : List (Step α)) :
    p.walk rooted (front ++ rest) = (p.walk rooted front).walk rooted rest :=
  List.foldl_append

@[simp]
theorem follow_start (rooted : Bool) (p : Place α) : p.follow rooted start = p := by
  simp [follow, start]

/-- A path that does not climb stays below. -/
theorem follow_of_ups_eq_zero (rooted : Bool) (p : Place α) {q : Place α} (h : q.ups = 0) :
    p.follow rooted q = ⟨p.ups, p.names ++ q.names⟩ := by
  simp [follow, h]

/-- One more step of the place that is followed. -/
theorem follow_step (rooted : Bool) (p q : Place α) (s : Step α) :
    (p.follow rooted q).step rooted s = p.follow rooted (q.step false s) := by
  cases s with
  | name a =>
      unfold follow step
      by_cases h : q.ups ≤ p.names.length
      · simp [h]
      · simp [h]
  | up =>
      unfold step parent
      by_cases hnames : q.names = []
      · simp only [hnames, List.isEmpty_nil, if_true, Bool.false_eq_true, if_false]
        unfold follow
        rcases Nat.lt_trichotomy q.ups p.names.length with hlt | heq | hgt
        · have hne : p.names.take (p.names.length - q.ups) ≠ [] := by
            intro hnil
            have := congrArg List.length hnil
            simp at this
            omega
          have hle : q.ups ≤ p.names.length := Nat.le_of_lt hlt
          have hsucc : q.ups + 1 ≤ p.names.length := hlt
          have hlength : (p.names.take (p.names.length - q.ups)).length - 1 =
              p.names.length - (q.ups + 1) := by
            rw [List.length_take]
            omega
          simp only [hle, hsucc, if_true, hnames, List.append_nil, List.isEmpty_iff, hne, if_false]
          rw [List.dropLast_eq_take, hlength, List.take_take]
          congr 2
          omega
        · cases rooted <;> simp [hnames, heq]
        · have hle : ¬ q.ups ≤ p.names.length := by omega
          have hsucc : ¬ q.ups + 1 ≤ p.names.length := by omega
          have hone : q.ups + 1 - p.names.length = q.ups - p.names.length + 1 := by omega
          cases rooted <;> simp [hle, hsucc, hnames, hone, Nat.add_assoc]
      · have hempty : q.names.isEmpty = false := by simpa using hnames
        simp only [hempty, Bool.false_eq_true, if_false]
        unfold follow
        by_cases h : q.ups ≤ p.names.length
        · simp [h, hnames, List.dropLast_append_of_ne_nil]
        · simp [h, hnames]

/-- **The place alone decides** where its steps lead from elsewhere. -/
theorem walk_eq_follow (rooted : Bool) (p : Place α) (steps : List (Step α)) :
    p.walk rooted steps = p.follow rooted (start.walk false steps) := by
  induction steps using List.reverseRecOn with
  | nil => simp
  | append_singleton front s ih =>
      rw [walk_append, walk_append, ih]
      exact follow_step rooted p _ s

/-- The names of a place come from the steps to it. -/
theorem mem_names_walk {rooted : Bool} {p : Place α} {steps : List (Step α)} {a : α}
    (h : a ∈ (p.walk rooted steps).names) : a ∈ p.names ∨ Step.name a ∈ steps := by
  induction steps generalizing p with
  | nil => exact Or.inl h
  | cons s rest ih =>
      rcases ih h with hstep | hrest
      · cases s with
        | name b =>
            rcases List.mem_append.mp hstep with hmem | hnew
            · exact Or.inl hmem
            · obtain rfl := List.mem_singleton.mp hnew
              exact Or.inr List.mem_cons_self
        | up =>
            left
            change a ∈ (p.parent rooted).names at hstep
            unfold parent at hstep
            split at hstep
            · split at hstep
              · exact hstep
              · exact absurd hstep List.not_mem_nil
            · exact List.dropLast_subset _ hstep
      · exact Or.inr (List.mem_cons_of_mem s hrest)

/-! ## Steps of a place -/

theorem walk_names (rooted : Bool) (p : Place α) (names : List α) :
    p.walk rooted (names.map .name) = ⟨p.ups, p.names ++ names⟩ := by
  induction names generalizing p with
  | nil => simp
  | cons a rest ih => simp [ih, step]

theorem walk_ups (n : Nat) : (start : Place α).walk false (List.replicate n .up) = ⟨n, []⟩ := by
  induction n with
  | zero => rfl
  | succ n ih =>
      rw [List.replicate_succ', walk_append, ih]
      rfl

/-- **The steps of a place lead to it**; from a root they may not climb. -/
theorem walk_steps {rooted : Bool} {p : Place α} (h : rooted = true → p.ups = 0) :
    start.walk rooted p.steps = p := by
  unfold steps
  rw [walk_append]
  have hups : (start : Place α).walk rooted (List.replicate p.ups .up) = ⟨p.ups, []⟩ := by
    cases rooted with
    | false => exact walk_ups p.ups
    | true =>
        rw [h rfl]
        rfl
  rw [hups, walk_names]
  rfl

/-- Among the steps of a place none goes up behind one that goes down. -/
theorem steps_pairwise (p : Place α) :
    p.steps.Pairwise fun s t => s.isName = true → t.isName = true := by
  refine List.pairwise_append.mpr ⟨?_, ?_, ?_⟩
  · exact List.pairwise_replicate.mpr (Or.inr (by simp))
  · refine List.pairwise_map.mpr (List.pairwise_of_forall fun a b _ => ?_)
    rfl
  · intro s _ t ht _
    obtain ⟨a, -, rfl⟩ := List.mem_map.mp ht
    rfl

/-- What leads on from a place with a name leads down. -/
theorem eq_names_of_append {p q : Place α} {more : List (Step α)} (hne : p.names ≠ [])
    (h : q.steps = p.steps ++ more) : ∃ names : List α, more = names.map .name := by
  obtain ⟨a, ha⟩ := List.exists_mem_of_ne_nil p.names hne
  have hmem : Step.name a ∈ p.steps := List.mem_append_right _ (List.mem_map_of_mem ha)
  have hpairs := q.steps_pairwise
  rw [h] at hpairs
  have hall := (List.pairwise_append.mp hpairs).2.2 _ hmem
  clear h hpairs
  induction more with
  | nil => exact ⟨[], rfl⟩
  | cons s rest ih =>
      obtain ⟨names, rfl⟩ := ih fun t ht => hall t (List.mem_cons_of_mem s ht)
      have hs := hall s List.mem_cons_self rfl
      cases s with
      | up => contradiction
      | name b => exact ⟨b :: names, rfl⟩

/-- From a root no path climbs. -/
theorem walk_rooted_ups (p : Place α) (steps : List (Step α)) :
    (p.walk true steps).ups = p.ups := by
  induction steps generalizing p with
  | nil => rfl
  | cons s rest ih =>
      rw [walk_cons, ih]
      cases s with
      | name a => rfl
      | up =>
          show (p.parent true).ups = p.ups
          unfold parent
          split <;> rfl

/-! ## Paths that never climb -/

/-- A path that has climbed stays above. -/
theorem ups_le_walk (p : Place α) (steps : List (Step α)) :
    p.ups ≤ (p.walk false steps).ups := by
  induction steps generalizing p with
  | nil => exact Nat.le_refl _
  | cons s rest ih =>
      refine Nat.le_trans ?_ (ih _)
      cases s with
      | name a => exact Nat.le_refl _
      | up =>
          show p.ups ≤ (p.parent false).ups
          unfold parent
          split
          · exact Nat.le_succ _
          · exact Nat.le_refl _

/-- **A path never climbs** above where it starts exactly when on each part of it from the
start no more steps go up than down. -/
theorem ups_eq_zero_iff (names : List α) (steps : List (Step α)) :
    ((⟨0, names⟩ : Place α).walk false steps).ups = 0 ↔
      ∀ part, part <+: steps →
        part.countP (fun s => !s.isName) ≤ names.length + part.countP Step.isName := by
  induction steps generalizing names with
  | nil => simp
  | cons s rest ih =>
      rw [walk_cons]
      cases s with
      | name a =>
          rw [show (⟨0, names⟩ : Place α).step false (.name a) = ⟨0, names ++ [a]⟩ from rfl, ih]
          constructor
          · intro h part hpart
            rcases part with _ | ⟨x, part⟩
            · simp
            · obtain ⟨rfl, htail⟩ := List.cons_prefix_cons.mp hpart
              have hrest := h part htail
              simp [List.countP_cons] at hrest ⊢
              omega
          · intro h part hpart
            have hall := h (.name a :: part) (List.cons_prefix_cons.mpr ⟨rfl, hpart⟩)
            simp [List.countP_cons] at hall ⊢
            omega
      | up =>
          by_cases hnames : names = []
          · subst hnames
            have hclimb : 0 < (((⟨0, []⟩ : Place α).step false .up).walk false rest).ups :=
              ups_le_walk (⟨1, []⟩ : Place α) rest
            constructor
            · omega
            · intro h
              have hone := h [.up] (List.cons_prefix_cons.mpr ⟨rfl, List.nil_prefix⟩)
              simp at hone
          · have hparent : (⟨0, names⟩ : Place α).step false .up = ⟨0, names.dropLast⟩ := by
              simp [step, parent, hnames]
            have hpos := List.length_pos_iff.mpr hnames
            rw [hparent, ih]
            constructor
            · intro h part hpart
              rcases part with _ | ⟨x, part⟩
              · simp
              · obtain ⟨rfl, htail⟩ := List.cons_prefix_cons.mp hpart
                have hrest := h part htail
                simp at hrest ⊢
                omega
            · intro h part hpart
              have hall := h (.up :: part) (List.cons_prefix_cons.mpr ⟨rfl, hpart⟩)
              simp at hall ⊢
              omega

end Place
end Library
end FrigateXdna
