import Mathlib.Order.Bounds.Basic
import Cameo.Library.StableOrder
import Cameo.Supervisor.Admission

/-!
# Exact admission

What the admission policy is for: a load is refused when it exceeds the budget, admitted when it
fits beside the residents, and otherwise makes room by evicting no more than the shortest prefix
of the residents in least-recently-used order.  The sums saturate, so a budget of the largest
`u64` is never exceeded by one: there a load is admitted beside residents it does not fit with.
-/

namespace Cameo.Supervisor

open Library

def RoomAfter (budget need : ℕ) (order : List ResidentVram) : Set ℕ :=
  fun count ↦ sumVram (order.drop count) + need ≤ budget

/-- The admission policy on exact sums. -/
structure ExactAdmission (budget need : ℕ) (residents : List ResidentVram)
    (decision : Admission) : Prop where
  refuses : decision = .refuse ↔ budget < need
  admits : decision = .admitted ↔ sumVram residents + need ≤ budget
  evicts : need ≤ budget → budget < sumVram residents + need →
    ∃ order count, StableOrder ResidentVram.lastUsed residents order ∧
      IsLeast (RoomAfter budget need order) count ∧
      decision = .evict ((order.take count).map ResidentVram.id)

theorem stableOrder_sortByLastUsed (residents : List ResidentVram) :
    StableOrder ResidentVram.lastUsed residents (sortByLastUsed residents) :=
  stableOrder_insertionSort ResidentVram.lastUsed residents

@[simp] theorem sumVram_nil : sumVram [] = 0 := rfl

@[simp] theorem sumVram_cons (resident : ResidentVram) (rest : List ResidentVram) :
    sumVram (resident :: rest) = resident.vramBytes + sumVram rest := List.sum_cons

/-- One more resident ahead of the order raises the least count by one when keeping it leaves no
room. -/
theorem isLeast_roomAfter_cons {budget need count : ℕ} {resident : ResidentVram}
    {order : List ResidentVram} (hfull : budget < sumVram (resident :: order) + need)
    (h : IsLeast (RoomAfter budget need order) count) :
    IsLeast (RoomAfter budget need (resident :: order)) (count + 1) := by
  refine ⟨h.1, ?_⟩
  intro other hother
  cases other with
  | zero => exact absurd hother (not_le.mpr hfull)
  | succ other => exact Nat.succ_le_succ (h.2 hother)

/-- Over sums that do not saturate, the eviction loop stops at the least count that leaves room. -/
theorem evictUntil_least {budget need : ℕ} (hneed : need ≤ budget)
    (order : List ResidentVram) (evicted : List String)
    (hexact : ∀ sum ≤ sumVram order, saturatingAdd sum need ≤ budget ↔ sum + need ≤ budget)
    (hfull : budget < sumVram order + need) :
    ∃ count, IsLeast (RoomAfter budget need order) count ∧
      evictUntil budget need (sumVram order) evicted order =
        .evict (evicted ++ (order.take count).map ResidentVram.id) := by
  induction order generalizing evicted with
  | nil => exact absurd hneed (by simpa using hfull)
  | cons resident rest ih =>
    have hrest : sumVram (resident :: rest) - resident.vramBytes = sumVram rest := by
      rw [sumVram_cons, Nat.add_sub_cancel_left]
    unfold evictUntil
    dsimp only
    rw [hrest]
    have hle : sumVram rest ≤ sumVram (resident :: rest) := Nat.le_add_left _ _
    by_cases hroom : sumVram rest + need ≤ budget
    · rw [if_pos ((hexact _ hle).mpr hroom)]
      refine ⟨1, isLeast_roomAfter_cons hfull ⟨hroom, fun _ _ ↦ Nat.zero_le _⟩, ?_⟩
      simp
    · rw [if_neg (mt (hexact _ hle).mp hroom)]
      have hkeep := fun sum hsum ↦ hexact sum (le_trans hsum hle)
      obtain ⟨count, hleast, hevict⟩ := ih (evicted ++ [resident.id]) hkeep (not_le.mp hroom)
      refine ⟨count + 1, isLeast_roomAfter_cons hfull hleast, ?_⟩
      rw [hevict]
      simp

/-- A sum is compared with the budget exactly, unless the budget is the largest `u64` and the sum
lies beyond it. -/
theorem saturatingAdd_le_iff_of_within {budget need total sum : ℕ} (hsum : sum ≤ total)
    (h : budget < u64Max ∨ total + need ≤ u64Max) :
    saturatingAdd sum need ≤ budget ↔ sum + need ≤ budget := by
  rcases h with hbudget | htotal
  · exact saturatingAdd_le_iff hbudget
  · rw [saturatingAdd, min_eq_left (by omega)]

/-- Admission is exact unless the budget is the largest `u64` and the load does not fit beside the
residents. -/
theorem exactAdmission_iff {budget need : ℕ} {residents : List ResidentVram}
    (hbudget : budget ≤ u64Max) (hneed : need ≤ u64Max) (hsum : sumVram residents ≤ u64Max) :
    ExactAdmission budget need residents (admitVram budget need residents) ↔
      budget < u64Max ∨ sumVram residents + need ≤ u64Max := by
  have hused : usedVram residents = sumVram residents := by
    rw [usedVram_eq_min]
    exact min_eq_left hsum
  constructor
  · intro hexact
    by_contra hover
    rw [not_or, not_lt, not_le] at hover
    -- The saturated sum is the largest value itself, which the budget allows.
    have hadmitted : admitVram budget need residents = .admitted := by
      rw [admitVram_eq_admitted_iff residents (hneed.trans hover.1)]
      exact (min_le_right _ _).trans hover.1
    have hfits := hexact.admits.mp hadmitted
    omega
  · intro hwithin
    have hcompare {sum : ℕ} (h : sum ≤ sumVram residents) :=
      saturatingAdd_le_iff_of_within h hwithin
    refine ⟨admitVram_eq_refuse_iff _ _ _, ?_, ?_⟩
    · by_cases hlarge : budget < need
      · rw [(admitVram_eq_refuse_iff _ _ _).mpr hlarge]
        exact iff_of_false nofun (by omega)
      · rw [admitVram_eq_admitted_iff residents (not_lt.mp hlarge), hused]
        exact hcompare le_rfl
    · intro hfit hfull
      have hsorted := stableOrder_sortByLastUsed residents
      have hsame := sumVram_perm hsorted.perm
      obtain ⟨count, hleast, hevict⟩ := evictUntil_least hfit (sortByLastUsed residents) []
        (fun sum h ↦ hcompare (h.trans_eq hsame)) (hsame ▸ hfull)
      refine ⟨_, count, hsorted, hleast, ?_⟩
      rw [admitVram, if_neg (not_lt.mpr hfit)]
      dsimp only
      rw [hused, if_neg (mt (hcompare le_rfl).mp (not_le.mpr hfull)), ← hsame, hevict,
        List.nil_append]

/-- Two tied residents of 6 and 4 bytes beside a load of 5: the first listed goes, then fits. -/
theorem exactAdmission_tied :
    ExactAdmission 10 5 [⟨"b", 6, 7⟩, ⟨"a", 4, 7⟩]
      (admitVram 10 5 [⟨"b", 6, 7⟩, ⟨"a", 4, 7⟩]) :=
  (exactAdmission_iff (by decide) (by decide) (by decide)).mpr (.inl (by decide))

/-- With the largest budget, a load of one byte is admitted beside a resident that fills it. -/
theorem not_exactAdmission_largest_budget :
    sumVram [⟨"full", u64Max, 0⟩] ≤ u64Max ∧
      ¬ ExactAdmission u64Max 1 [⟨"full", u64Max, 0⟩]
        (admitVram u64Max 1 [⟨"full", u64Max, 0⟩]) := by
  refine ⟨by decide, ?_⟩
  intro hexact
  have hadmitted : admitVram u64Max 1 [⟨"full", u64Max, 0⟩] = .admitted := by decide
  exact absurd (hexact.admits.mp hadmitted) (by decide)

end Cameo.Supervisor
