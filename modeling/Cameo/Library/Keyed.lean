import Mathlib.Data.List.Nodup
import Mathlib.Data.List.Perm.Basic
import Mathlib.Algebra.BigOperators.Group.List.Basic
import Mathlib.Algebra.Order.BigOperators.Group.List
import Mathlib.Tactic.Linarith

/-!
# Keyed tables in iteration order

A `Table key` is a finite map whose values carry their own key.  The entries are listed in the
order in which a traversal visits them, and the absence of duplicate keys is a field, so that a
lookup is determined by the key alone.  Traversals that rewrite every value (`map`), one value
(`modify`) or a prefix of the values up to a hit (`walk`) keep the keys and therefore the table.

Sums over a table (`total`) are compared through the keys: a table whose entries are matched by
key with entries of another one, with pointwise smaller weight, has the smaller total.
-/

namespace Cameo.Library.Keyed

variable {α κ ε : Type} {key : α → κ}

/-- A finite map of self-keyed values, in iteration order. -/
structure Table (key : α → κ) where
  entries : List α
  nodup : (entries.map key).Nodup

namespace Table

@[ext]
theorem ext {left right : Table key} (h : left.entries = right.entries) : left = right := by
  cases left
  cases right
  cases h
  rfl

/-- The table without entries. -/
def empty : Table key := ⟨[], List.nodup_nil⟩

/-- Replace the entry list by one with the same keys at the same positions. -/
def rebuild (table : Table key) (entries : List α)
    (h : entries.map key = table.entries.map key) : Table key :=
  ⟨entries, h ▸ table.nodup⟩

@[simp]
theorem entries_rebuild (table : Table key) (entries : List α)
    (h : entries.map key = table.entries.map key) :
    (table.rebuild entries h).entries = entries := rfl

/-- Rewrite every value by a function that keeps its key. -/
def map (table : Table key) (f : α → α) (hf : ∀ a, key (f a) = key a) : Table key :=
  table.rebuild (table.entries.map f) (by
    rw [List.map_map]
    exact List.map_congr_left fun a _ ↦ hf a)

@[simp]
theorem entries_map (table : Table key) (f : α → α) (hf : ∀ a, key (f a) = key a) :
    (table.map f hf).entries = table.entries.map f := rfl

/-- Keep the entries that satisfy a predicate. -/
def retain (table : Table key) (keep : α → Bool) : Table key :=
  ⟨table.entries.filter keep, table.nodup.sublist (List.filter_sublist.map key)⟩

@[simp]
theorem entries_retain (table : Table key) (keep : α → Bool) :
    (table.retain keep).entries = table.entries.filter keep := rfl

/-- Another traversal order of the same entries. -/
def reorder (table : Table key) (entries : List α) (h : entries.Perm table.entries) : Table key :=
  ⟨entries, ((h.map key).nodup_iff).mpr table.nodup⟩

variable [DecidableEq κ]

/-- The value stored under a key. -/
def get? (table : Table key) (k : κ) : Option α := table.entries.find? fun a ↦ key a = k

/-- Drop the value stored under a key. -/
def erase (table : Table key) (k : κ) : Table key := table.retain fun a ↦ key a ≠ k

/-- Rewrite the value stored under one key. -/
def modify (table : Table key) (k : κ) (f : α → α) (hf : ∀ a, key (f a) = key a) : Table key :=
  table.map (fun a ↦ if key a = k then f a else a) (by
    intro a
    split
    · exact hf a
    · rfl)

theorem get?_eq_none_iff (table : Table key) (k : κ) :
    table.get? k = none ↔ ∀ a ∈ table.entries, key a ≠ k := by
  simp [get?]

theorem key_of_get? {table : Table key} {k : κ} {a : α} (h : table.get? k = some a) :
    key a = k := by
  simpa using List.find?_some h

theorem mem_of_get? {table : Table key} {k : κ} {a : α} (h : table.get? k = some a) :
    a ∈ table.entries := List.mem_of_find?_eq_some h

omit [DecidableEq κ] in
/-- Two entries with one key are one entry. -/
theorem eq_of_key_eq {table : Table key} {a b : α} (ha : a ∈ table.entries)
    (hb : b ∈ table.entries) (h : key a = key b) : a = b :=
  List.inj_on_of_nodup_map table.nodup ha hb h

theorem get?_eq_some_iff (table : Table key) (k : κ) (a : α) :
    table.get? k = some a ↔ a ∈ table.entries ∧ key a = k := by
  constructor
  · intro h
    exact ⟨mem_of_get? h, key_of_get? h⟩
  · rintro ⟨hmem, hkey⟩
    cases hget : table.get? k with
    | none => exact absurd hkey ((table.get?_eq_none_iff k).mp hget a hmem)
    | some b =>
      have hb := key_of_get? hget
      rw [eq_of_key_eq (mem_of_get? hget) hmem (hb.trans hkey.symm)]

theorem get?_map (table : Table key) (f : α → α) (hf : ∀ a, key (f a) = key a) (k : κ) :
    (table.map f hf).get? k = (table.get? k).map f := by
  simp only [get?, entries_map, List.find?_map, Function.comp_def, hf]

theorem mem_erase (table : Table key) (k : κ) (a : α) :
    a ∈ (table.erase k).entries ↔ a ∈ table.entries ∧ key a ≠ k := by
  simp [erase]

theorem get?_retain (table : Table key) (keep : α → Bool) (k : κ) :
    (table.retain keep).get? k = (table.get? k).filter keep := by
  apply Option.ext
  intro a
  simp only [get?_eq_some_iff, entries_retain, List.mem_filter, Option.filter_eq_some_iff]
  tauto

theorem get?_erase_self (table : Table key) (k : κ) : (table.erase k).get? k = none := by
  rw [get?_eq_none_iff]
  intro a ha
  exact ((table.mem_erase k a).mp ha).2

theorem get?_erase_of_ne (table : Table key) {k other : κ} (h : other ≠ k) :
    (table.erase k).get? other = table.get? other := by
  apply Option.ext
  intro a
  simp only [get?_eq_some_iff, mem_erase]
  constructor
  · rintro ⟨⟨hmem, -⟩, hkey⟩
    exact ⟨hmem, hkey⟩
  · rintro ⟨hmem, hkey⟩
    exact ⟨⟨hmem, hkey ▸ h⟩, hkey⟩

theorem get?_modify (table : Table key) (k other : κ) (f : α → α)
    (hf : ∀ a, key (f a) = key a) :
    (table.modify k f hf).get? other =
      if other = k then (table.get? other).map f else table.get? other := by
  rw [modify, get?_map]
  cases hget : table.get? other with
  | none => simp
  | some a =>
    rw [Option.map_some, Option.map_some, key_of_get? hget]
    split <;> rfl

theorem mem_modify (table : Table key) (k : κ) (f : α → α) (hf : ∀ a, key (f a) = key a) (b : α) :
    b ∈ (table.modify k f hf).entries ↔
      (b ∈ table.entries ∧ key b ≠ k) ∨ ∃ a ∈ table.entries, key a = k ∧ f a = b := by
  simp only [modify, entries_map, List.mem_map]
  constructor
  · rintro ⟨a, hmem, rfl⟩
    by_cases hk : key a = k
    · exact .inr ⟨a, hmem, hk, by simp [hk]⟩
    · exact .inl (by simpa [hk] using hmem)
  · rintro (⟨hmem, hk⟩ | ⟨a, hmem, hk, rfl⟩)
    · exact ⟨b, hmem, by simp [hk]⟩
    · exact ⟨a, hmem, by simp [hk]⟩

/-- Store a value under its own key: in place when the key is present, else at the end. -/
def insert (table : Table key) (a : α) : Table key :=
  if h : (table.get? (key a)).isSome then
    table.rebuild (table.entries.map fun b ↦ if key b = key a then a else b) (by
      rw [List.map_map]
      apply List.map_congr_left
      intro b _
      by_cases hb : key b = key a <;> simp [hb])
  else
    ⟨table.entries ++ [a], by
      rw [Bool.not_eq_true, Option.isSome_eq_false_iff, Option.isNone_iff_eq_none,
        get?_eq_none_iff] at h
      rw [List.map_append, List.map_singleton, List.nodup_append]
      refine ⟨table.nodup, List.nodup_singleton _, ?_⟩
      intro k hk other hother
      obtain ⟨b, hb, rfl⟩ := List.mem_map.mp hk
      rw [List.mem_singleton.mp hother]
      exact h b hb⟩

theorem mem_insert (table : Table key) (a b : α) :
    b ∈ (table.insert a).entries ↔ b = a ∨ (b ∈ table.entries ∧ key b ≠ key a) := by
  unfold insert
  split
  · rename_i h
    obtain ⟨old, hold⟩ := Option.isSome_iff_exists.mp h
    simp only [entries_rebuild, List.mem_map]
    constructor
    · rintro ⟨c, hc, rfl⟩
      by_cases hk : key c = key a
      · exact .inl (by simp [hk])
      · exact .inr (by simpa [hk] using hc)
    · rintro (rfl | ⟨hmem, hk⟩)
      · exact ⟨old, mem_of_get? hold, by simp [key_of_get? hold]⟩
      · exact ⟨b, hmem, by simp [hk]⟩
  · rename_i h
    rw [Bool.not_eq_true, Option.isSome_eq_false_iff, Option.isNone_iff_eq_none,
      get?_eq_none_iff] at h
    simp only [List.mem_append, List.mem_singleton]
    constructor
    · rintro (hmem | rfl)
      · exact .inr ⟨hmem, h b hmem⟩
      · exact .inl rfl
    · rintro (rfl | ⟨hmem, -⟩)
      · exact .inr rfl
      · exact .inl hmem

theorem get?_insert (table : Table key) (a : α) (k : κ) :
    (table.insert a).get? k = if key a = k then some a else table.get? k := by
  apply Option.ext
  intro b
  rw [get?_eq_some_iff, mem_insert]
  by_cases hk : key a = k
  · rw [if_pos hk]
    constructor
    · rintro ⟨rfl | ⟨-, hne⟩, hb⟩
      · rfl
      · exact absurd (hb.trans hk.symm) hne
    · intro h
      cases h
      exact ⟨.inl rfl, hk⟩
  · rw [if_neg hk, get?_eq_some_iff]
    constructor
    · rintro ⟨rfl | ⟨hmem, -⟩, hb⟩
      · exact absurd hb hk
      · exact ⟨hmem, hb⟩
    · rintro ⟨hmem, hb⟩
      exact ⟨.inr ⟨hmem, fun h ↦ hk (h.symm.trans hb)⟩, hb⟩

/-! ## Totals -/

omit [DecidableEq κ] in
/-- The sum of a weight over all entries. -/
def total (table : Table key) (weight : α → ℕ) : ℕ := (table.entries.map weight).sum

omit [DecidableEq κ] in
theorem total_congr {table : Table key} {weight weight' : α → ℕ}
    (h : ∀ a ∈ table.entries, weight a = weight' a) : table.total weight = table.total weight' :=
  congrArg List.sum (List.map_congr_left h)

omit [DecidableEq κ] in
theorem total_add (table : Table key) (weight weight' : α → ℕ) :
    table.total (fun a ↦ weight a + weight' a) = table.total weight + table.total weight' :=
  List.sum_map_add

omit [DecidableEq κ] in
theorem total_retain (table : Table key) (keep : α → Bool) (weight : α → ℕ) :
    (table.retain keep).total weight = table.total fun a ↦ if keep a then weight a else 0 := by
  unfold total
  rw [entries_retain]
  induction table.entries with
  | nil => rfl
  | cons a rest ih =>
    cases hkeep : keep a <;> simp [hkeep, ih]

/-- Splitting off one key: the rest, and the weight stored under the key. -/
theorem total_eq_erase_add (table : Table key) (weight : α → ℕ) (k : κ) :
    table.total weight =
      (table.erase k).total weight + ((table.get? k).map weight).getD 0 := by
  obtain ⟨entries, nodup⟩ := table
  induction entries with
  | nil => rfl
  | cons a rest ih =>
    have hrest : (rest.map key).Nodup := (List.nodup_cons.mp nodup).2
    have hfresh : key a ∉ rest.map key := (List.nodup_cons.mp nodup).1
    have hsplit := ih hrest
    simp only [total, erase, retain, get?, List.map_cons, List.sum_cons] at hsplit ⊢
    by_cases hk : key a = k
    · have hall : rest.filter (fun b ↦ decide (key b ≠ k)) = rest := by
        apply List.filter_eq_self.mpr
        intro b hb
        have hne : key b ≠ k := fun h ↦
          hfresh (List.mem_map.mpr ⟨b, hb, h.trans hk.symm⟩)
        simpa using hne
      rw [List.find?_cons_of_pos (by simpa using hk), List.filter_cons_of_neg (by simpa using hk),
        hall]
      simp [Nat.add_comm]
    · rw [List.find?_cons_of_neg (by simpa using hk), List.filter_cons_of_pos (by simpa using hk)]
      simp only [List.map_cons, List.sum_cons]
      omega

theorem total_insert (table : Table key) (weight : α → ℕ) (a : α) :
    (table.insert a).total weight = (table.erase (key a)).total weight + weight a := by
  rw [total_eq_erase_add (table.insert a) weight (key a), get?_insert, if_pos rfl]
  congr 1
  unfold total insert
  split
  · simp only [erase, entries_retain, entries_rebuild, List.filter_map]
    congr 1
    rw [List.map_map]
    have hpred : table.entries.filter
        ((fun b ↦ decide (key b ≠ key a)) ∘ fun b ↦ if key b = key a then a else b) =
          table.entries.filter fun b ↦ decide (key b ≠ key a) := by
      apply List.filter_congr
      intro b _
      by_cases hb : key b = key a <;> simp [hb]
    rw [hpred]
    apply List.map_congr_left
    intro b hb
    have hne : key b ≠ key a := by simpa using (List.mem_filter.mp hb).2
    simp [hne]
  · simp [erase]

/-- A table matched by key into another one, with smaller weights, has the smaller total. -/
theorem total_le_of_matched (left right : Table key) (weight weight' : α → ℕ)
    (h : ∀ a ∈ left.entries, weight a ≠ 0 →
      ∃ b ∈ right.entries, key b = key a ∧ weight a ≤ weight' b) :
    left.total weight ≤ right.total weight' := by
  obtain ⟨entries, nodup⟩ := left
  induction entries generalizing right with
  | nil => simp [total]
  | cons a rest ih =>
    have hrest : (rest.map key).Nodup := (List.nodup_cons.mp nodup).2
    have hfresh : key a ∉ rest.map key := (List.nodup_cons.mp nodup).1
    have htail : (⟨rest, hrest⟩ : Table key).total weight ≤
        (right.erase (key a)).total weight' := by
      apply ih (right.erase (key a)) hrest
      intro c hc hweight
      obtain ⟨b, hb, hkey, hle⟩ := h c (List.mem_cons_of_mem a hc) hweight
      refine ⟨b, (right.mem_erase _ b).mpr ⟨hb, fun heq ↦ ?_⟩, hkey, hle⟩
      exact hfresh (List.mem_map.mpr ⟨c, hc, hkey.symm.trans heq⟩)
    have hhead : weight a ≤ ((right.get? (key a)).map weight').getD 0 := by
      by_cases hzero : weight a = 0
      · omega
      · obtain ⟨b, hb, hkey, hle⟩ := h a List.mem_cons_self hzero
        rw [(right.get?_eq_some_iff (key a) b).mpr ⟨hb, hkey⟩]
        simpa using hle
    have hright := right.total_eq_erase_add weight' (key a)
    simp only [total, List.map_cons, List.sum_cons] at htail hright ⊢
    omega

end Table

/-! ## Traversal up to a hit -/

/-- What a traversal leaves behind: the entry it stopped at, the rewritten entries and the
events emitted on the way. -/
structure Walked (α ε : Type) where
  found : Option α
  entries : List α
  events : List ε

/-- Visit the picked entries in order, rewriting each, until a rewritten entry is a hit. -/
def walk (pick : α → Bool) (visit : α → α × List ε) (hit : α → Bool) : List α → Walked α ε
  | [] => ⟨none, [], []⟩
  | a :: rest =>
    if pick a then
      let visited := visit a
      if hit visited.1 then
        ⟨some visited.1, visited.1 :: rest, visited.2⟩
      else
        let tail := walk pick visit hit rest
        ⟨tail.found, visited.1 :: tail.entries, visited.2 ++ tail.events⟩
    else
      let tail := walk pick visit hit rest
      ⟨tail.found, a :: tail.entries, tail.events⟩

section Walk

variable (pick : α → Bool) (visit : α → α × List ε) (hit : α → Bool)

/-- Every entry after a walk is an old entry, or the visit of a picked one, whose events the walk
then emits. -/
theorem forall₂_walk (entries : List α) :
    List.Forall₂ (fun a b ↦ b = a ∨ (pick a ∧ b = (visit a).1 ∧
        ∀ event ∈ (visit a).2, event ∈ (walk pick visit hit entries).events))
      entries (walk pick visit hit entries).entries := by
  induction entries with
  | nil => exact .nil
  | cons a rest ih =>
    unfold walk
    split
    · rename_i hpick
      dsimp only
      split
      · exact .cons (.inr ⟨hpick, rfl, fun _ h ↦ h⟩) (List.forall₂_same.mpr fun _ _ ↦ .inl rfl)
      · refine .cons (.inr ⟨hpick, rfl, fun _ h ↦ List.mem_append_left _ h⟩) (ih.imp ?_)
        rintro b c (rfl | ⟨hb, rfl, hevents⟩)
        · exact .inl rfl
        · exact .inr ⟨hb, rfl, fun event h ↦ List.mem_append_right _ (hevents event h)⟩
    · exact .cons (.inl rfl) ih

theorem map_key_walk (hvisit : ∀ a, key (visit a).1 = key a) (entries : List α) :
    (walk pick visit hit entries).entries.map key = entries.map key := by
  have h : List.Forall₂ (fun a b ↦ key b = key a)
      entries (walk pick visit hit entries).entries := by
    refine List.Forall₂.imp ?_ (forall₂_walk pick visit hit entries)
    rintro a b (rfl | ⟨-, rfl, -⟩)
    · rfl
    · exact hvisit a
  generalize (walk pick visit hit entries).entries = walked at h ⊢
  induction h with
  | nil => rfl
  | cons hab _ ih => rw [List.map_cons, List.map_cons, ih, hab]

/-- The entry a walk stops at is the visit of a picked entry and is a hit. -/
theorem walk_found {entries : List α} {a : α} (h : (walk pick visit hit entries).found = some a) :
    hit a ∧ a ∈ (walk pick visit hit entries).entries ∧
      ∃ b ∈ entries, pick b ∧ a = (visit b).1 := by
  induction entries with
  | nil => simp [walk] at h
  | cons b rest ih =>
    unfold walk at h ⊢
    split at h
    · rename_i hpick
      rw [if_pos hpick]
      dsimp only at h ⊢
      split at h
      · rename_i hhit
        rw [if_pos hhit]
        cases h
        exact ⟨hhit, List.mem_cons_self, b, List.mem_cons_self, hpick, rfl⟩
      · rename_i hhit
        rw [if_neg hhit]
        obtain ⟨hha, hmem, c, hc, hpc, heq⟩ := ih h
        exact ⟨hha, List.mem_cons_of_mem _ hmem, c, List.mem_cons_of_mem _ hc, hpc, heq⟩
    · rename_i hpick
      rw [if_neg hpick]
      obtain ⟨hha, hmem, c, hc, hpc, heq⟩ := ih h
      exact ⟨hha, List.mem_cons_of_mem _ hmem, c, List.mem_cons_of_mem _ hc, hpc, heq⟩

/-- A walk that finds nothing has visited every picked entry, and none of them was a hit. -/
theorem walk_not_found {entries : List α} (h : (walk pick visit hit entries).found = none) :
    (walk pick visit hit entries).entries =
        entries.map (fun a ↦ if pick a then (visit a).1 else a) ∧
      ∀ a ∈ entries, pick a → hit (visit a).1 = false := by
  induction entries with
  | nil => simp [walk]
  | cons b rest ih =>
    unfold walk at h ⊢
    split at h
    · rename_i hpick
      rw [if_pos hpick]
      dsimp only at h ⊢
      split at h
      · cases h
      · rename_i hhit
        rw [if_neg hhit]
        obtain ⟨heq, hall⟩ := ih h
        refine ⟨by simp [heq, hpick], ?_⟩
        intro a ha hpa
        rcases List.mem_cons.mp ha with rfl | ha
        · simpa using hhit
        · exact hall a ha hpa
    · rename_i hpick
      rw [if_neg hpick]
      obtain ⟨heq, hall⟩ := ih h
      refine ⟨by simp [heq, hpick], ?_⟩
      intro a ha hpa
      rcases List.mem_cons.mp ha with rfl | ha
      · exact absurd hpa hpick
      · exact hall a ha hpa

/-- Every event of a walk was emitted by the visit of a picked entry. -/
theorem mem_walk_events {entries : List α} {event : ε}
    (h : event ∈ (walk pick visit hit entries).events) :
    ∃ a ∈ entries, pick a ∧ event ∈ (visit a).2 := by
  induction entries with
  | nil => simp [walk] at h
  | cons b rest ih =>
    unfold walk at h
    split at h
    · rename_i hpick
      dsimp only at h
      split at h
      · exact ⟨b, List.mem_cons_self, hpick, h⟩
      · rcases List.mem_append.mp h with h | h
        · exact ⟨b, List.mem_cons_self, hpick, h⟩
        · obtain ⟨a, ha, hpa, hev⟩ := ih h
          exact ⟨a, List.mem_cons_of_mem _ ha, hpa, hev⟩
    · obtain ⟨a, ha, hpa, hev⟩ := ih h
      exact ⟨a, List.mem_cons_of_mem _ ha, hpa, hev⟩

end Walk

end Cameo.Library.Keyed
