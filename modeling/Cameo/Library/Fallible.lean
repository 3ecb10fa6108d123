import Mathlib.Data.List.Forall2

/-!
# Fallible computations

What it means that a computation in `Except` succeeds: a sequence of two if both do, a check if it
passes, a loop over a list if every round does.
-/

namespace Cameo.Library

variable {ε α β : Type}

/-- A sequence succeeds if its first part does and the second one goes on from its result. -/
theorem bind_eq_ok {first : Except ε α} {rest : α → Except ε β} {b : β} :
    (first >>= rest) = .ok b ↔ ∃ a, first = .ok a ∧ rest a = .ok b := by
  cases first with
  | ok a => simp [bind, Except.bind]
  | error e => simp [bind, Except.bind]

/-- What may be missing is there. -/
theorem elim_eq_ok {found : Option α} {e : ε} {a : α} :
    found.elim (.error e) .ok = (.ok a : Except ε α) ↔ found = some a := by
  cases found with
  | none => simp
  | some other => simp

/-- A check with an answer behind it succeeds if the check passes and the answer does. -/
theorem ite_error_eq_ok {condition : Prop} [Decidable condition] {e : ε} {rest : Except ε α}
    {a : α} : (if condition then .error e else rest) = .ok a ↔ ¬ condition ∧ rest = .ok a := by
  by_cases hcondition : condition
  · simp [hcondition]
  · simp [hcondition]

theorem mapM_ok {f : α → Except ε β} {items : List α} {results : List β}
    (h : items.mapM f = .ok results) : List.Forall₂ (fun item result ↦ f item = .ok result) items
      results := by
  induction items generalizing results with
  | nil =>
    cases h
    exact .nil
  | cons item rest ih =>
    rw [List.mapM_cons, bind_eq_ok] at h
    obtain ⟨first, hfirst, h⟩ := h
    rw [bind_eq_ok] at h
    obtain ⟨others, hothers, h⟩ := h
    cases h
    exact .cons hfirst (ih hothers)

theorem exists_mapM_ok {f : α → Except ε β} {items : List α}
    (h : ∀ item ∈ items, ∃ result, f item = .ok result) :
    ∃ results, items.mapM f = .ok results := by
  induction items with
  | nil => exact ⟨[], rfl⟩
  | cons item rest ih =>
    obtain ⟨⟨first, hfirst⟩, hrest⟩ := List.forall_mem_cons.mp h
    obtain ⟨others, hothers⟩ := ih hrest
    refine ⟨first :: others, ?_⟩
    rw [List.mapM_cons, hfirst, hothers]
    rfl

end Cameo.Library
