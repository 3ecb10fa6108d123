import Mathlib.Data.List.Sort

/-!
# Stable orders

`StableOrder key items order` says that `order` lists `items` by increasing key and keeps items of
equal keys in the order they had.  Insertion sort computes it.
-/

namespace Cameo.Library

variable {α κ : Type} [LinearOrder κ]

/-- A list in increasing key order whose ties stand as they did before. -/
structure StableOrder (key : α → κ) (items order : List α) : Prop where
  perm : order.Perm items
  sorted : order.Pairwise fun a b ↦ key a ≤ key b
  stable : ∀ k, order.filter (fun item ↦ key item = k) = items.filter (fun item ↦ key item = k)

theorem stableOrder_insertionSort (key : α → κ) (items : List α) :
    StableOrder key items (items.insertionSort fun a b ↦ key a ≤ key b) := by
  have : IsTrans α fun a b ↦ key a ≤ key b := ⟨fun _ _ _ ↦ le_trans⟩
  have : Std.Total fun a b : α ↦ key a ≤ key b := ⟨fun a b ↦ le_total (key a) (key b)⟩
  have hperm := List.perm_insertionSort (fun a b ↦ key a ≤ key b) items
  refine ⟨hperm, List.pairwise_insertionSort _ items, ?_⟩
  intro k
  -- Items of one key are already sorted, so the sort keeps them as a sublist.
  have htied : (items.filter fun item ↦ key item = k).Pairwise fun a b ↦ key a ≤ key b := by
    rw [List.pairwise_filter]
    refine List.pairwise_of_forall ?_
    intro a b ha hb
    exact (of_decide_eq_true ha).trans (of_decide_eq_true hb).symm |>.le
  have hkept := (List.sublist_insertionSort htied List.filter_sublist).filter
    fun item ↦ key item = k
  rw [List.filter_filter] at hkept
  simp only [Bool.and_self] at hkept
  exact (hkept.eq_of_length (hperm.filter _).length_eq.symm).symm

end Cameo.Library
