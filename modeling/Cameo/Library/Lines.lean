import Mathlib.Data.List.Infix

/-!
# Delimited lines

The first line of a list, with the delimiter that ends it.  A line is recovered from a list that
begins with it, and what is not ended by a delimiter is the whole list.
-/

namespace Cameo.Library

variable {α : Type} [DecidableEq α]

/-- The elements up to and including the first delimiter; all of them if there is none. -/
def takeThrough (delimiter : α) : List α → List α
  | [] => []
  | x :: rest => if x = delimiter then [x] else x :: takeThrough delimiter rest

variable {delimiter : α}

theorem takeThrough_append {line : List α} (h : delimiter ∉ line) (rest : List α) :
    takeThrough delimiter (line ++ delimiter :: rest) = line ++ [delimiter] := by
  induction line with
  | nil => exact if_pos rfl
  | cons x line ih =>
    obtain ⟨hne, hline⟩ := not_or.mp (mt List.mem_cons.mpr h)
    rw [List.cons_append, takeThrough, if_neg (Ne.symm hne), ih hline, List.cons_append]

theorem takeThrough_prefix (xs : List α) : takeThrough delimiter xs <+: xs := by
  induction xs with
  | nil => exact List.nil_prefix
  | cons x rest ih =>
    unfold takeThrough
    split
    · exact List.prefix_append [x] rest
    · exact (List.prefix_cons_inj x).mpr ih

/-- What is cut off at the first delimiter is a line. -/
theorem exists_line_of_takeThrough {xs taken : List α}
    (h : takeThrough delimiter xs = taken ++ [delimiter]) : delimiter ∉ taken := by
  induction xs generalizing taken with
  | nil => cases taken <;> cases h
  | cons x rest ih =>
    unfold takeThrough at h
    split at h
    · rename_i heq
      cases taken with
      | nil => exact List.not_mem_nil
      | cons y taken =>
        rw [List.cons_append, List.cons.injEq] at h
        cases taken <;> cases h.2
    · rename_i hne
      cases taken with
      | nil =>
        rw [List.nil_append, List.cons.injEq] at h
        exact absurd h.1 hne
      | cons y taken =>
        rw [List.cons_append, List.cons.injEq] at h
        rw [List.mem_cons, not_or, ← h.1]
        exact ⟨Ne.symm hne, ih h.2⟩

/-- A line that fits a limit is taken through the limit. -/
theorem takeThrough_take {line : List α} (h : delimiter ∉ line) {limit : ℕ}
    (hlimit : line.length < limit) (rest : List α) :
    takeThrough delimiter ((line ++ delimiter :: rest).take limit) = line ++ [delimiter] := by
  obtain ⟨spare, rfl⟩ := Nat.exists_eq_add_of_lt hlimit
  rw [List.take_append, List.take_of_length_le (by omega),
    show line.length + spare + 1 - line.length = spare + 1 by omega, List.take_succ_cons,
    takeThrough_append h]

end Cameo.Library
