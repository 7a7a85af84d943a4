import Mathlib.Data.List.Basic

/-!
# Searching for a key between delimiters

The first place where a word stands between two delimiters.  A text is cut into pieces by
its delimiters, and the word stands where a piece between two of them equals it.

Main results:

- Theorem {lit}`search_enclosed_skip`: text without a delimiter is skipped.
- Theorem {lit}`search_enclosed_piece`: a piece between two delimiters is the word, or the
  search goes on at its end.
-/

namespace FrigateXdna
namespace Library

variable {α : Type*} [DecidableEq α]

/-- The text from the first occurrence of a part on. -/
def search (part : List α) : List α → Option (List α)
  | [] => if part.isEmpty then some [] else none
  | c :: cs => if part.isPrefixOf (c :: cs) then some (c :: cs) else search part cs

/-- The text from the first occurrence of one item on. -/
def searchOne (x : α) : List α → Option (List α)
  | [] => none
  | c :: cs => if c = x then some (c :: cs) else searchOne x cs

/-- A word between two delimiters. -/
def enclosed (q : α) (word : List α) : List α :=
  q :: word ++ [q]

variable {q x : α} {word piece rest : List α}

/-- Items that differ are skipped. -/
theorem searchOne_append (h : x ∉ piece) :
    searchOne x (piece ++ rest) = searchOne x rest := by
  induction piece with
  | nil => rfl
  | cons c cs ih =>
      rw [List.mem_cons, not_or] at h
      rw [List.cons_append, searchOne, if_neg (Ne.symm h.1), ih h.2]

@[simp]
theorem searchOne_cons_self (x : α) (rest : List α) :
    searchOne x (x :: rest) = some (x :: rest) :=
  if_pos rfl

/-- An item that is nowhere is not found. -/
theorem searchOne_eq_none (h : x ∉ rest) : searchOne x rest = none := by
  have hskip : searchOne x (rest ++ []) = searchOne x [] := searchOne_append h
  rwa [List.append_nil] at hskip

/-- **Text without a delimiter is skipped.** -/
theorem search_enclosed_skip (h : q ∉ piece) :
    search (enclosed q word) (piece ++ rest) = search (enclosed q word) rest := by
  induction piece with
  | nil => rfl
  | cons c cs ih =>
      rw [List.mem_cons, not_or] at h
      have hhead : (enclosed q word).isPrefixOf (c :: (cs ++ rest)) = false := by
        rw [enclosed, List.cons_append, List.isPrefixOf_cons_cons, beq_false_of_ne h.1,
          Bool.false_and]
      rw [List.cons_append, search, hhead, ← ih h.2]
      rfl

theorem search_enclosed_nil : search (enclosed q word) [] = none :=
  rfl

/-- Two words without the delimiter, each before one. -/
theorem isPrefixOf_enclosed (hword : q ∉ word) (hpiece : q ∉ piece) :
    (word ++ [q]).isPrefixOf (piece ++ q :: rest) = decide (piece = word) := by
  induction word generalizing piece with
  | nil =>
      cases piece with
      | nil => simp
      | cons c cs =>
          rw [List.mem_cons, not_or] at hpiece
          rw [List.nil_append, List.cons_append, List.isPrefixOf_cons_cons,
            beq_false_of_ne hpiece.1]
          simp
  | cons w ws ih =>
      rw [List.mem_cons, not_or] at hword
      cases piece with
      | nil =>
          rw [List.cons_append, List.nil_append, List.isPrefixOf_cons_cons,
            beq_false_of_ne (Ne.symm hword.1)]
          simp
      | cons c cs =>
          rw [List.mem_cons, not_or] at hpiece
          rw [List.cons_append, List.cons_append, List.isPrefixOf_cons_cons,
            ih hword.2 hpiece.2]
          by_cases hc : w = c
          · simp [hc]
          · simp [hc, Ne.symm hc]

/-- **A piece between two delimiters** is the word, or the search goes on at its end. -/
theorem search_enclosed_piece (hword : q ∉ word) (hpiece : q ∉ piece) :
    search (enclosed q word) (q :: (piece ++ q :: rest)) =
      if piece = word then some (q :: (piece ++ q :: rest))
      else search (enclosed q word) (q :: rest) := by
  have hprefix : (enclosed q word).isPrefixOf (q :: (piece ++ q :: rest)) =
      decide (piece = word) := by
    rw [enclosed, List.cons_append, List.isPrefixOf_cons_cons, isPrefixOf_enclosed hword hpiece]
    simp
  rw [search, hprefix]
  by_cases h : piece = word
  · simp [h]
  · simp only [h, decide_false, Bool.false_eq_true, if_false]
    exact search_enclosed_skip hpiece

/-- Behind the last delimiter there is no word. -/
theorem search_enclosed_last (hpiece : q ∉ piece) :
    search (enclosed q word) (q :: piece) = none := by
  have hprefix : (enclosed q word).isPrefixOf (q :: piece) = false := by
    rw [← Bool.not_eq_true, List.isPrefixOf_iff_prefix]
    intro hprefix
    have htail := (List.cons_prefix_cons.mp hprefix).2
    exact hpiece (htail.subset (by simp))
  have hskip : search (enclosed q word) (piece ++ []) = search (enclosed q word) [] :=
    search_enclosed_skip hpiece
  rw [List.append_nil, search_enclosed_nil] at hskip
  rw [search, hprefix]
  exact hskip

end Library
end FrigateXdna
