import Mathlib.Data.List.DropRight

/-!
# Trimming

A list without what satisfies a predicate at its two ends.
-/

namespace Cameo.Library

variable {α : Type} {p q : α → Bool}

def isSpaceOrTab (c : Char) : Bool := c = ' ' || c = '\t'

/-- The list between its leading and its trailing elements that satisfy the predicate. -/
def trimBy (p : α → Bool) (xs : List α) : List α := (xs.dropWhile p).rdropWhile p

theorem rdropWhile_append_of_pos {xs back : List α} (h : ∀ x ∈ back, p x = true) :
    (xs ++ back).rdropWhile p = xs.rdropWhile p := by
  rw [List.rdropWhile, List.rdropWhile, List.reverse_append, List.dropWhile_append_of_pos]
  exact fun x hx ↦ h x (List.mem_reverse.mp hx)

theorem trimBy_append_left {front : List α} (h : ∀ x ∈ front, p x = true) (xs : List α) :
    trimBy p (front ++ xs) = trimBy p xs := by
  rw [trimBy, List.dropWhile_append_of_pos h]
  rfl

theorem trimBy_append_right {back : List α} (h : ∀ x ∈ back, p x = true) (xs : List α) :
    trimBy p (xs ++ back) = trimBy p xs := by
  rw [trimBy, trimBy, List.dropWhile_append]
  split
  · rename_i hempty
    rw [List.isEmpty_iff] at hempty
    rw [hempty, List.dropWhile_eq_nil_iff.mpr h]
  · exact rdropWhile_append_of_pos h

theorem exists_rdropWhile (p : α → Bool) (xs : List α) :
    ∃ back, (∀ x ∈ back, p x = true) ∧ xs = xs.rdropWhile p ++ back := by
  refine ⟨(xs.reverse.takeWhile p).reverse,
    fun x hx ↦ List.mem_takeWhile_imp (List.mem_reverse.mp hx), ?_⟩
  rw [List.rdropWhile, ← List.reverse_append, List.takeWhile_append_dropWhile, List.reverse_reverse]

/-- What is trimmed off satisfies the predicate. -/
theorem exists_trimBy (p : α → Bool) (xs : List α) :
    ∃ front back, (∀ x ∈ front, p x = true) ∧ (∀ x ∈ back, p x = true) ∧
      xs = front ++ (trimBy p xs ++ back) := by
  obtain ⟨back, hback, hdrop⟩ := exists_rdropWhile p (xs.dropWhile p)
  refine ⟨xs.takeWhile p, back, fun x hx ↦ List.mem_takeWhile_imp hx, hback, ?_⟩
  rw [trimBy, ← hdrop, List.takeWhile_append_dropWhile]

/-- A list is trimmed if neither its first nor its last element satisfies the predicate. -/
theorem trimBy_eq_self_iff {xs : List α} :
    trimBy p xs = xs ↔ xs.head?.any p = false ∧ xs.getLast?.any p = false := by
  have hhead : xs.dropWhile p = xs ↔ xs.head?.any p = false := by
    cases xs with
    | nil => simp
    | cons x rest =>
      rw [List.dropWhile_eq_self_iff]
      simp
  have hlast : xs.rdropWhile p = xs ↔ xs.getLast?.any p = false := by
    rw [List.rdropWhile_eq_self_iff]
    by_cases hxs : xs = []
    · simp [hxs]
    · rw [List.getLast?_eq_some_getLast hxs]
      simp [hxs]
  rw [← hhead, ← hlast]
  constructor
  · intro h
    have hprefix : trimBy p xs <+: xs.dropWhile p := List.rdropWhile_prefix _ _
    have hsuffix : xs.dropWhile p <:+ xs := List.dropWhile_suffix _
    rw [h] at hprefix
    have hdrop : xs.dropWhile p = xs :=
      hsuffix.eq_of_length_le hprefix.length_le
    rw [trimBy, hdrop] at h
    exact ⟨hdrop, h⟩
  · rintro ⟨hdrop, hrdrop⟩
    rw [trimBy, hdrop, hrdrop]

/-- Trimming more after trimming less. -/
theorem trimBy_trimBy (h : ∀ x, p x = true → q x = true) (xs : List α) :
    trimBy q (trimBy p xs) = trimBy q xs := by
  obtain ⟨front, back, hfront, hback, hxs⟩ := exists_trimBy p xs
  conv_rhs => rw [hxs]
  rw [trimBy_append_left fun x hx ↦ h x (hfront x hx),
    trimBy_append_right fun x hx ↦ h x (hback x hx)]

end Cameo.Library
