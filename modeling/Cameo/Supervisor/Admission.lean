import Mathlib.Data.List.Sort
import Mathlib.Algebra.BigOperators.Group.List.Basic
import Cameo.Clock

/-!
# VRAM admission

The pure admission policy: refuse a load larger than the budget, admit one that fits beside the
residents, otherwise name the least recently used residents until it fits.  The sums saturate at
the largest `u64`.  The residents are the unleased ones only, so a refusal says nothing about
leases: it happens exactly when the load alone exceeds the budget.
-/

namespace Cameo.Supervisor

/-- `ResidentVram`: a resident endpoint as the admission decision sees it. -/
structure ResidentVram where
  id : String
  vramBytes : ℕ
  lastUsed : SystemTime
deriving DecidableEq

/-- `Admission`. -/
inductive Admission where
  | admitted
  | evict (ids : List String)
  | refuse
deriving DecidableEq

/-- The saturating sum `admit` takes of its residents. -/
def usedVram (residents : List ResidentVram) : ℕ :=
  residents.foldl (fun used resident ↦ saturatingAdd used resident.vramBytes) 0

def sumVram (residents : List ResidentVram) : ℕ := (residents.map ResidentVram.vramBytes).sum

/-- The eviction loop of `admit`, over residents from the least recently used on. -/
def evictUntil (budget need : ℕ) : ℕ → List String → List ResidentVram → Admission
  | _, _, [] => .refuse
  | remaining, evicted, resident :: rest =>
    let remaining := remaining - resident.vramBytes
    let evicted := evicted ++ [resident.id]
    if saturatingAdd remaining need ≤ budget then .evict evicted
    else evictUntil budget need remaining evicted rest

/-- `residents.sort_by_key(|resident| resident.last_used)`, a stable sort. -/
def sortByLastUsed (residents : List ResidentVram) : List ResidentVram :=
  residents.insertionSort fun a b ↦ a.lastUsed ≤ b.lastUsed

/-- `admit`. -/
def admitVram (budget need : ℕ) (residents : List ResidentVram) : Admission :=
  if need > budget then .refuse
  else
    let used := usedVram residents
    if saturatingAdd used need ≤ budget then .admitted
    else evictUntil budget need used [] (sortByLastUsed residents)

/-- `exclude_leased_residents`. -/
def excludeLeasedResidents (residents : List ResidentVram) (leased : List String) :
    List ResidentVram :=
  residents.filter fun resident ↦ !leased.contains resident.id

def Admission.victims : Admission → List String
  | .evict ids => ids
  | _ => []

/-! ## What the decision guarantees -/

theorem usedVram_eq_min (residents : List ResidentVram) :
    usedVram residents = min (sumVram residents) u64Max := by
  have hfold (start : ℕ) (hstart : start ≤ u64Max) :
      residents.foldl (fun used resident ↦ saturatingAdd used resident.vramBytes) start =
        min (start + sumVram residents) u64Max := by
    induction residents generalizing start with
    | nil => simp [sumVram, hstart]
    | cons resident rest ih =>
      rw [List.foldl_cons, ih (saturatingAdd start resident.vramBytes) (min_le_right _ _)]
      simp only [saturatingAdd, sumVram, List.map_cons, List.sum_cons]
      omega
  rw [usedVram, hfold 0 (Nat.zero_le _), Nat.zero_add]

theorem sumVram_perm {left right : List ResidentVram} (h : left.Perm right) :
    sumVram left = sumVram right := (h.map _).sum_eq

theorem sortByLastUsed_perm (residents : List ResidentVram) :
    (sortByLastUsed residents).Perm residents := List.perm_insertionSort _ _

/-- The eviction loop names a prefix, and what remains after it fits. -/
theorem evictUntil_eq_evict {budget need remaining : ℕ} {evicted ids : List String}
    {residents : List ResidentVram}
    (h : evictUntil budget need remaining evicted residents = .evict ids) :
    ∃ named kept, residents = named ++ kept ∧ ids = evicted ++ named.map ResidentVram.id ∧
      saturatingAdd (remaining - sumVram named) need ≤ budget := by
  induction residents generalizing remaining evicted with
  | nil => cases h
  | cons resident rest ih =>
    unfold evictUntil at h
    dsimp only at h
    split at h
    · rename_i hfits
      cases h
      exact ⟨[resident], rest, rfl, rfl, by simpa [sumVram] using hfits⟩
    · obtain ⟨named, kept, hsplit, hids, hfits⟩ := ih h
      refine ⟨resident :: named, kept, by rw [hsplit]; rfl, by simp [hids], ?_⟩
      simpa [sumVram, Nat.sub_sub] using hfits

/-- The eviction loop never gives up on a load that fits an empty device. -/
theorem evictUntil_ne_refuse {budget need remaining : ℕ} {evicted : List String}
    {residents : List ResidentVram} (hneed : need ≤ budget) (hne : residents ≠ [])
    (hcovered : remaining ≤ sumVram residents) :
    evictUntil budget need remaining evicted residents ≠ .refuse := by
  induction residents generalizing remaining evicted with
  | nil => exact absurd rfl hne
  | cons resident rest ih =>
    unfold evictUntil
    dsimp only
    split
    · exact nofun
    · rename_i hfull
      cases rest with
      | nil =>
        have hzero : remaining - resident.vramBytes = 0 := by
          simp only [sumVram, List.map_cons, List.map_nil, List.sum_cons, List.sum_nil] at hcovered
          omega
        rw [hzero, saturatingAdd] at hfull
        omega
      | cons next rest' =>
        refine ih (List.cons_ne_nil _ _) ?_
        simp only [sumVram, List.map_cons, List.sum_cons] at hcovered ⊢
        omega

theorem evictUntil_ne_admitted (budget need remaining : ℕ) (evicted : List String)
    (residents : List ResidentVram) :
    evictUntil budget need remaining evicted residents ≠ .admitted := by
  induction residents generalizing remaining evicted with
  | nil => exact nofun
  | cons resident rest ih =>
    unfold evictUntil
    dsimp only
    split
    · exact nofun
    · exact ih _ _

/-- Admission refuses exactly a load larger than the whole budget. -/
theorem admitVram_eq_refuse_iff (budget need : ℕ) (residents : List ResidentVram) :
    admitVram budget need residents = .refuse ↔ budget < need := by
  unfold admitVram
  split
  · rename_i hlarge
    simpa using hlarge
  · rename_i hneed
    simp only [gt_iff_lt, not_lt] at hneed
    refine iff_of_false ?_ (not_lt.mpr hneed)
    dsimp only
    split
    · exact nofun
    · rename_i hfull
      apply evictUntil_ne_refuse hneed
      · intro hempty
        have hnil : residents = [] := by
          have hperm := sortByLastUsed_perm residents
          rw [hempty] at hperm
          exact hperm.nil_eq.symm
        subst hnil
        rw [saturatingAdd, usedVram, List.foldl_nil] at hfull
        omega
      · rw [sumVram_perm (sortByLastUsed_perm residents), usedVram_eq_min]
        exact min_le_left _ _

/-- A load that fits the budget is admitted without eviction exactly when the saturated sum
with the residents fits too. -/
theorem admitVram_eq_admitted_iff {budget need : ℕ} (residents : List ResidentVram)
    (hneed : need ≤ budget) :
    admitVram budget need residents = .admitted ↔
      saturatingAdd (usedVram residents) need ≤ budget := by
  unfold admitVram
  rw [if_neg (not_lt.mpr hneed)]
  dsimp only
  split
  · rename_i hfits
    exact iff_of_true rfl hfits
  · rename_i hfull
    exact iff_of_false (evictUntil_ne_admitted _ _ _ _ _) hfull

/-- The VRAM of the residents that are not named. -/
def keptVram (residents : List ResidentVram) (victims : List String) : ℕ :=
  sumVram (residents.filter fun resident ↦ !victims.contains resident.id)

theorem keptVram_nil (residents : List ResidentVram) :
    keptVram residents [] = sumVram residents :=
  congrArg sumVram (List.filter_eq_self.mpr fun _ _ ↦ rfl)

/-- Naming the victims of a split of the residents keeps the rest of the split. -/
theorem keptVram_of_perm {residents named kept : List ResidentVram}
    (hperm : (named ++ kept).Perm residents) (hnodup : (residents.map ResidentVram.id).Nodup) :
    keptVram residents (named.map ResidentVram.id) = sumVram kept := by
  have hsplit : ((named ++ kept).map ResidentVram.id).Nodup :=
    ((hperm.map _).nodup_iff).mpr hnodup
  rw [List.map_append, List.nodup_append] at hsplit
  have hnone : named.filter
      (fun resident ↦ !(named.map ResidentVram.id).contains resident.id) = [] := by
    rw [List.filter_eq_nil_iff]
    intro resident hmem
    simp only [List.contains_eq_mem, Bool.not_eq_true', decide_eq_false_iff_not, not_not]
    exact List.mem_map_of_mem hmem
  have hall : kept.filter
      (fun resident ↦ !(named.map ResidentVram.id).contains resident.id) = kept := by
    rw [List.filter_eq_self]
    intro resident hmem
    simp only [List.contains_eq_mem, Bool.not_eq_true', decide_eq_false_iff_not]
    intro hnamed
    exact hsplit.2.2 _ hnamed _ (List.mem_map_of_mem hmem) rfl
  rw [keptVram, ← sumVram_perm (hperm.filter _), List.filter_append, hnone, hall, List.nil_append]

/-- An admission that evicts splits the residents into the victims and the rest, and the load fits
once the victims' VRAM is subtracted. -/
theorem admitVram_eq_evict {budget need : ℕ} {residents : List ResidentVram} {ids : List String}
    (h : admitVram budget need residents = .evict ids) :
    ∃ named kept, (named ++ kept).Perm residents ∧ ids = named.map ResidentVram.id ∧
      saturatingAdd (usedVram residents - sumVram named) need ≤ budget := by
  unfold admitVram at h
  split at h
  · cases h
  · dsimp only at h
    split at h
    · cases h
    · obtain ⟨named, kept, hsplit, hids, hfits⟩ := evictUntil_eq_evict h
      exact ⟨named, kept, hsplit ▸ sortByLastUsed_perm residents, hids, hfits⟩

/-- As long as no sum saturates, what admission keeps fits beside the load. -/
theorem admitVram_kept_fits {budget need : ℕ} {residents : List ResidentVram}
    (hbudget : budget < u64Max) (hsum : sumVram residents ≤ u64Max)
    (hnodup : (residents.map ResidentVram.id).Nodup)
    (hdecision : admitVram budget need residents ≠ .refuse) :
    keptVram residents (admitVram budget need residents).victims + need ≤ budget := by
  have hneed : need ≤ budget := by
    by_contra hlarge
    exact hdecision ((admitVram_eq_refuse_iff _ _ _).mpr (not_le.mp hlarge))
  have hused : usedVram residents = sumVram residents := by
    rw [usedVram_eq_min]
    exact min_eq_left hsum
  cases hcase : admitVram budget need residents with
  | refuse => exact absurd hcase hdecision
  | admitted =>
    have hfits := (admitVram_eq_admitted_iff residents hneed).mp hcase
    rw [hused, saturatingAdd_le_iff hbudget] at hfits
    change keptVram residents [] + need ≤ budget
    rw [keptVram_nil]
    exact hfits
  | evict ids =>
    obtain ⟨named, kept, hperm, rfl, hfits⟩ := admitVram_eq_evict hcase
    rw [hused, saturatingAdd_le_iff hbudget] at hfits
    have hsplit : sumVram residents = sumVram named + sumVram kept := by
      rw [← sumVram_perm hperm]
      simp [sumVram]
    rw [Admission.victims, keptVram_of_perm hperm hnodup]
    omega

/-- Every victim is one of the residents. -/
theorem mem_victims {budget need : ℕ} {residents : List ResidentVram} {id : String}
    (h : id ∈ (admitVram budget need residents).victims) :
    ∃ resident ∈ residents, resident.id = id := by
  cases hcase : admitVram budget need residents with
  | refuse => rw [hcase] at h; cases h
  | admitted => rw [hcase] at h; cases h
  | evict ids =>
    obtain ⟨named, kept, hperm, rfl, -⟩ := admitVram_eq_evict hcase
    rw [hcase, Admission.victims] at h
    obtain ⟨resident, hmem, rfl⟩ := List.mem_map.mp h
    exact ⟨resident, hperm.subset (List.mem_append_left _ hmem), rfl⟩

end Cameo.Supervisor
