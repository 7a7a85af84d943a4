import Mathlib.Data.List.Induction

/-!
# Greedy selection

A list in order of preference, from which an item is kept unless one kept before it drops it,
up to a limit.  A loop may filter what is left after each choice, or mark what is dropped and
step over it.

Main results:

- Theorem {lit}`greedyMarks_eq`: marking selects what filtering selects.
- Theorem {lit}`greedy_eq_walk`: filtering selects what a walk through the items selects.
- Theorem {lit}`greedy_sublist`: the selection keeps the order.
- Theorem {lit}`greedy_length_le`: the selection keeps the limit.
-/

namespace FrigateXdna
namespace Library

variable {α β : Type*}

/-- The selection that filters what is left; {lit}`fuel` bounds the rounds. -/
def greedy (drops : α → α → Bool) (limit : Nat) : Nat → Nat → List α → List α
  | 0, _, _ => []
  | _ + 1, _, [] => []
  | fuel + 1, kept, a :: rest =>
      if kept < limit then
        a :: greedy drops limit fuel (kept + 1) (rest.filter fun b => !drops a b)
      else []

/-- The selection that marks what is dropped. -/
def greedyMarks (drops : α → α → Bool) (limit : Nat) : Nat → Nat → List (α × Bool) → List α
  | 0, _, _ => []
  | _ + 1, _, [] => []
  | fuel + 1, kept, (a, dropped) :: rest =>
      if kept < limit then
        if dropped then greedyMarks drops limit fuel kept rest
        else
          a :: greedyMarks drops limit fuel (kept + 1)
            (rest.map fun x => (x.1, x.2 || drops a x.1))
      else []

/-- The items without a mark. -/
def unmarked (items : List (α × Bool)) : List α :=
  (items.filter fun x => !x.2).map Prod.fst

variable {drops : α → α → Bool} {limit : Nat}

@[simp]
theorem unmarked_nil : unmarked ([] : List (α × Bool)) = [] :=
  rfl

@[simp]
theorem unmarked_cons_true (a : α) (rest : List (α × Bool)) :
    unmarked ((a, true) :: rest) = unmarked rest :=
  rfl

@[simp]
theorem unmarked_cons_false (a : α) (rest : List (α × Bool)) :
    unmarked ((a, false) :: rest) = a :: unmarked rest :=
  rfl

/-- Nothing is marked at first. -/
@[simp]
theorem unmarked_fresh (items : List α) :
    unmarked (items.map fun a => (a, false)) = items := by
  induction items with
  | nil => rfl
  | cons a rest ih => rw [List.map_cons, unmarked_cons_false, ih]

/-- Marking more items filters those without a mark. -/
theorem unmarked_mark (p : α → Bool) (items : List (α × Bool)) :
    unmarked (items.map fun x => (x.1, x.2 || p x.1)) = (unmarked items).filter fun b => !p b := by
  induction items with
  | nil => rfl
  | cons x rest ih =>
      rcases x with ⟨b, marked⟩
      rw [List.map_cons]
      cases marked with
      | true => rw [Bool.true_or, unmarked_cons_true, unmarked_cons_true, ih]
      | false =>
          rw [Bool.false_or, unmarked_cons_false]
          cases hp : p b with
          | true =>
              rw [unmarked_cons_true, List.filter_cons_of_neg (by simp [hp]), ih]
          | false =>
              rw [unmarked_cons_false, List.filter_cons_of_pos (by simp [hp]), ih]

@[simp]
theorem greedy_nil (fuel kept : Nat) : greedy drops limit fuel kept [] = [] := by
  cases fuel <;> rfl

/-- At the limit nothing more is kept. -/
theorem greedy_full {kept : Nat} (h : ¬ kept < limit) (fuel : Nat) (items : List α) :
    greedy drops limit fuel kept items = [] := by
  cases fuel with
  | zero => rfl
  | succ fuel =>
      cases items with
      | nil => rfl
      | cons a rest => rw [greedy, if_neg h]

/-- **Marking selects what filtering selects.** -/
theorem greedyMarks_eq {items : List (α × Bool)} {fuel fuel' kept : Nat}
    (hfuel : items.length ≤ fuel) (hfuel' : (unmarked items).length ≤ fuel') :
    greedyMarks drops limit fuel kept items =
      greedy drops limit fuel' kept (unmarked items) := by
  induction fuel generalizing items fuel' kept with
  | zero =>
      have hitems : items = [] := List.eq_nil_of_length_eq_zero (Nat.le_zero.mp hfuel)
      rw [hitems, greedyMarks, unmarked_nil, greedy_nil]
  | succ fuel ih =>
      cases items with
      | nil => rw [greedyMarks, unmarked_nil, greedy_nil]
      | cons x rest =>
          rcases x with ⟨a, dropped⟩
          have hrest : rest.length ≤ fuel := Nat.le_of_succ_le_succ hfuel
          by_cases hkept : kept < limit
          · rw [greedyMarks, if_pos hkept]
            cases dropped with
            | true =>
                rw [if_pos rfl, unmarked_cons_true]
                exact ih hrest hfuel'
            | false =>
                rw [unmarked_cons_false, List.length_cons] at hfuel'
                obtain ⟨more, rfl⟩ : ∃ more, fuel' = more + 1 :=
                  Nat.exists_eq_add_one.mpr (by omega)
                have hmarked := unmarked_mark (fun b => drops a b) rest
                have hfilter : ((unmarked rest).filter fun b => !drops a b).length ≤ more :=
                  Nat.le_trans (List.length_filter_le _ _) (Nat.le_of_succ_le_succ hfuel')
                rw [if_neg Bool.false_ne_true, unmarked_cons_false, greedy, if_pos hkept, ← hmarked]
                rw [← hmarked] at hfilter
                rw [ih (by rwa [List.length_map]) hfilter]
          · rw [greedyMarks, if_neg hkept, greedy_full hkept]

/-- **The selection keeps the order.** -/
theorem greedy_sublist (fuel kept : Nat) (items : List α) :
    (greedy drops limit fuel kept items).Sublist items := by
  induction fuel generalizing kept items with
  | zero => exact List.nil_sublist items
  | succ fuel ih =>
      cases items with
      | nil => exact List.Sublist.refl []
      | cons a rest =>
          rw [greedy]
          split_ifs with hkept
          · exact ((ih _ _).trans List.filter_sublist).cons_cons a
          · exact List.nil_sublist _

/-- **The selection keeps the limit.** -/
theorem greedy_length_le (fuel kept : Nat) (items : List α) :
    (greedy drops limit fuel kept items).length ≤ limit - kept := by
  induction fuel generalizing kept items with
  | zero => exact Nat.zero_le _
  | succ fuel ih =>
      cases items with
      | nil => exact Nat.zero_le _
      | cons a rest =>
          rw [greedy]
          split_ifs with hkept
          · have hmore := ih (kept + 1) (rest.filter fun b => !drops a b)
            rw [List.length_cons]
            omega
          · exact Nat.zero_le _

/-- Items that stand for others are selected as they are. -/
theorem greedy_map {drops' : β → β → Bool} {f : α → β}
    (h : ∀ a b, drops' (f a) (f b) = drops a b) (fuel kept : Nat) (items : List α) :
    greedy drops' limit fuel kept (items.map f) = (greedy drops limit fuel kept items).map f := by
  induction fuel generalizing kept items with
  | zero => rfl
  | succ fuel ih =>
      cases items with
      | nil => rfl
      | cons a rest =>
          have hfilter : (rest.map f).filter (fun b => !drops' (f a) b) =
              (rest.filter fun b => !drops a b).map f := by
            rw [List.filter_map]
            congr 2
            funext b
            simp [h]
          rw [List.map_cons, greedy, greedy, hfilter, ih]
          split_ifs with hkept
          · rfl
          · rfl

/-! ## A walk through the items -/

/-- One item of the walk: it is kept if there is room and no kept item drops it. -/
def keepIf (drops : α → α → Bool) (limit : Nat) (chosen : List α) (a : α) : List α :=
  if chosen.length < limit ∧ ∀ k ∈ chosen, drops k a = false then chosen ++ [a] else chosen

/-- The selection as a walk through the items. -/
def walk (drops : α → α → Bool) (limit : Nat) (items : List α) : List α :=
  items.foldl (keepIf drops limit) []

@[simp]
theorem walk_nil : walk drops limit [] = [] :=
  rfl

/-- The turn of an item depends on what was kept before. -/
theorem walk_append_singleton (before : List α) (a : α) :
    walk drops limit (before ++ [a]) = keepIf drops limit (walk drops limit before) a := by
  rw [walk, List.foldl_append]
  rfl

theorem keepIf_full {chosen : List α} (h : ¬ chosen.length < limit) (a : α) :
    keepIf drops limit chosen a = chosen :=
  if_neg fun hkeep => h hkeep.1

/-- At the limit the walk keeps nothing more. -/
theorem foldl_keepIf_full {chosen : List α} (h : ¬ chosen.length < limit) (items : List α) :
    items.foldl (keepIf drops limit) chosen = chosen := by
  induction items with
  | nil => rfl
  | cons a rest ih => rw [List.foldl_cons, keepIf_full h, ih]

/-- What was kept stays kept. -/
theorem prefix_foldl_keepIf (chosen items : List α) :
    chosen <+: items.foldl (keepIf drops limit) chosen := by
  induction items generalizing chosen with
  | nil => exact List.prefix_refl chosen
  | cons a rest ih =>
      rw [List.foldl_cons]
      refine List.IsPrefix.trans ?_ (ih _)
      unfold keepIf
      split_ifs with hkeep
      · exact List.prefix_append chosen [a]
      · exact List.prefix_refl chosen

theorem walk_prefix (before after : List α) :
    walk drops limit before <+: walk drops limit (before ++ after) := by
  rw [walk, walk, List.foldl_append]
  exact prefix_foldl_keepIf _ _

/-- **No kept item drops a later one.** -/
theorem walk_pairwise (items : List α) :
    (walk drops limit items).Pairwise fun a b => drops a b = false := by
  induction items using List.reverseRecOn with
  | nil => exact List.Pairwise.nil
  | append_singleton before a ih =>
      rw [walk_append_singleton]
      unfold keepIf
      split_ifs with hkeep
      · refine List.pairwise_append.mpr ⟨ih, List.pairwise_singleton _ a, ?_⟩
        intro k hk b hb
        obtain rfl := List.mem_singleton.mp hb
        exact hkeep.2 k hk
      · exact ih

/-- The walk keeps the order. -/
theorem walk_sublist (items : List α) : (walk drops limit items).Sublist items := by
  induction items using List.reverseRecOn with
  | nil => exact List.Sublist.refl []
  | append_singleton before a ih =>
      rw [walk_append_singleton]
      unfold keepIf
      split_ifs with hkeep
      · exact ih.append (List.Sublist.refl [a])
      · exact ih.trans (List.sublist_append_left before [a])

/-- The walk keeps the limit. -/
theorem walk_length_le (items : List α) : (walk drops limit items).length ≤ limit := by
  induction items using List.reverseRecOn with
  | nil => exact Nat.zero_le _
  | append_singleton before a ih =>
      rw [walk_append_singleton]
      unfold keepIf
      split_ifs with hkeep
      · rw [List.length_append]
        exact hkeep.1
      · exact ih

/-- **Filtering selects what a walk selects.** -/
theorem greedy_eq_walk {items : List α} {fuel : Nat} (h : items.length ≤ fuel) :
    greedy drops limit fuel 0 items = walk drops limit items := by
  have hfrom : ∀ (items chosen : List α) (fuel : Nat), items.length ≤ fuel →
      chosen ++ greedy drops limit fuel chosen.length
          (items.filter fun b => chosen.all fun k => !drops k b) =
        items.foldl (keepIf drops limit) chosen := by
    intro items
    induction items with
    | nil => simp
    | cons a rest ih =>
        intro chosen fuel hfuel
        rw [List.foldl_cons]
        rw [List.length_cons] at hfuel
        by_cases hkept : chosen.length < limit
        · by_cases hfree : ∀ k ∈ chosen, drops k a = false
          · have hall : (chosen.all fun k => !drops k a) = true := by simpa using hfree
            obtain ⟨more, rfl⟩ : ∃ more, fuel = more + 1 :=
              Nat.exists_eq_add_one.mpr (by omega)
            have hagain := ih (chosen ++ [a]) more (by omega)
            have hfilter : (rest.filter fun b => (chosen ++ [a]).all fun k => !drops k b) =
                (rest.filter fun b => chosen.all fun k => !drops k b).filter
                  fun b => !drops a b := by
              rw [List.filter_filter]
              refine List.filter_congr fun b _ => ?_
              rw [List.all_append, Bool.and_comm]
              simp
            rw [keepIf, if_pos ⟨hkept, hfree⟩, ← hagain, hfilter, List.length_append,
              List.filter_cons_of_pos (p := fun b => chosen.all fun k => !drops k b) hall,
              greedy, if_pos hkept, List.append_assoc]
            rfl
          · have hall : ¬ (chosen.all fun k => !drops k a) = true := by simpa using hfree
            rw [keepIf, if_neg fun hkeep => hfree hkeep.2,
              List.filter_cons_of_neg (p := fun b => chosen.all fun k => !drops k b) hall]
            exact ih chosen fuel (by omega)
        · rw [keepIf_full hkept, greedy_full hkept, foldl_keepIf_full hkept, List.append_nil]
  have hall := hfrom items [] fuel h
  rw [List.filter_eq_self.mpr fun b _ => List.all_nil] at hall
  exact hall

end Library
end FrigateXdna
