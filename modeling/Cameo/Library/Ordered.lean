import Mathlib.Order.Defs.LinearOrder
import Mathlib.Data.List.Nodup
import Mathlib.Data.List.Sort

/-!
# Finite maps sorted by key

A `Map κ α` is a list of key/value pairs in strictly increasing key order; the order is a
field of the structure.  Iteration is therefore canonical: it depends on the contents only, and
two maps with the same lookups are equal.
-/

namespace Cameo.Library.Ordered

variable {κ α : Type} [LinearOrder κ]

/-- A finite map, listed in strictly increasing key order. -/
structure Map (κ α : Type) [LinearOrder κ] where
  entries : List (κ × α)
  sorted : entries.Pairwise fun a b ↦ a.1 < b.1

/-- Insertion of one pair into a sorted list of pairs, replacing an equal key. -/
def insertEntry (k : κ) (v : α) : List (κ × α) → List (κ × α)
  | [] => [(k, v)]
  | (k', v') :: rest =>
    if k < k' then (k, v) :: (k', v') :: rest
    else if k = k' then (k, v) :: rest
    else (k', v') :: insertEntry k v rest

theorem mem_insertEntry {k : κ} {v : α} {entries : List (κ × α)} {pair : κ × α}
    (h : pair ∈ insertEntry k v entries) : pair = (k, v) ∨ pair ∈ entries := by
  induction entries with
  | nil => exact .inl (List.mem_singleton.mp h)
  | cons head rest ih =>
    unfold insertEntry at h
    split at h
    · exact List.mem_cons.mp h
    · split at h
      · rcases List.mem_cons.mp h with h | h
        · exact .inl h
        · exact .inr (List.mem_cons_of_mem _ h)
      · rcases List.mem_cons.mp h with h | h
        · exact .inr (h ▸ List.mem_cons_self)
        · exact (ih h).imp id (List.mem_cons_of_mem _)

theorem sorted_insertEntry (k : κ) (v : α) {entries : List (κ × α)}
    (h : entries.Pairwise fun a b ↦ a.1 < b.1) :
    (insertEntry k v entries).Pairwise fun a b ↦ a.1 < b.1 := by
  induction entries with
  | nil => exact List.pairwise_singleton _ _
  | cons head rest ih =>
    obtain ⟨hhead, hrest⟩ := List.pairwise_cons.mp h
    unfold insertEntry
    split
    · rename_i hlt
      refine List.pairwise_cons.mpr ⟨?_, h⟩
      intro pair hpair
      rcases List.mem_cons.mp hpair with rfl | hpair
      · exact hlt
      · exact hlt.trans (hhead pair hpair)
    · split
      · rename_i heq
        exact List.pairwise_cons.mpr ⟨fun pair hpair ↦ heq ▸ hhead pair hpair, hrest⟩
      · rename_i hnlt hne
        refine List.pairwise_cons.mpr ⟨?_, ih hrest⟩
        intro pair hpair
        rcases mem_insertEntry hpair with rfl | hpair
        · exact lt_of_le_of_ne (not_lt.mp hnlt) (Ne.symm hne)
        · exact hhead pair hpair

theorem find?_insertEntry (k : κ) (v : α) (entries : List (κ × α)) (other : κ) :
    (insertEntry k v entries).find? (fun pair ↦ pair.1 = other) =
      if k = other then some (k, v) else entries.find? (fun pair ↦ pair.1 = other) := by
  induction entries with
  | nil => by_cases hk : k = other <;> simp [insertEntry, hk]
  | cons head rest ih =>
    unfold insertEntry
    split
    · by_cases hk : k = other <;> simp [hk]
    · split
      · rename_i heq
        by_cases hk : k = other
        · simp [hk]
        · have hhead : head.1 ≠ other := fun h ↦ hk (heq.trans h)
          simp [hk, hhead]
      · rename_i hne
        by_cases hhead : head.1 = other
        · have hk : k ≠ other := fun h ↦ hne (h.trans hhead.symm)
          rw [List.find?_cons_of_pos (by simpa using hhead), if_neg hk,
            List.find?_cons_of_pos (by simpa using hhead)]
        · simpa [hhead] using ih

/-- Replacing the value of a key keeps the number of pairs. -/
theorem length_insertEntry {k : κ} (v : α) {entries : List (κ × α)}
    (h : entries.Pairwise fun a b ↦ a.1 < b.1) (hk : k ∈ entries.map Prod.fst) :
    (insertEntry k v entries).length = entries.length := by
  induction entries with
  | nil => exact absurd hk List.not_mem_nil
  | cons head rest ih =>
    obtain ⟨hhead, hrest⟩ := List.pairwise_cons.mp h
    obtain ⟨pair, hpair, rfl⟩ := List.mem_map.mp hk
    unfold insertEntry
    rcases List.mem_cons.mp hpair with rfl | hpair
    · rw [if_neg (lt_irrefl _), if_pos rfl]
      rfl
    · have hlt := hhead pair hpair
      rw [if_neg hlt.not_gt, if_neg hlt.ne', List.length_cons, List.length_cons,
        ih hrest (List.mem_map.mpr ⟨pair, hpair, rfl⟩)]

/-- A new key adds a pair. -/
theorem perm_insertEntry {k : κ} (v : α) {entries : List (κ × α)}
    (hk : k ∉ entries.map Prod.fst) : (insertEntry k v entries).Perm ((k, v) :: entries) := by
  induction entries with
  | nil => exact .refl _
  | cons head rest ih =>
    rw [List.map_cons, List.mem_cons, not_or] at hk
    unfold insertEntry
    split
    · exact .refl _
    · rw [if_neg hk.1]
      exact ((ih hk.2).cons head).trans (.swap (k, v) head rest)

/-- Only the last of the pairs that are inserted under a key is kept. -/
theorem insertEntry_insertEntry (k : κ) (v w : α) (entries : List (κ × α)) :
    insertEntry k w (insertEntry k v entries) = insertEntry k w entries := by
  induction entries with
  | nil => simp [insertEntry]
  | cons head rest ih =>
    obtain ⟨key, value⟩ := head
    by_cases hlt : k < key
    · simp [insertEntry, hlt]
    · by_cases heq : k = key
      · simp [insertEntry, heq]
      · simp [insertEntry, hlt, heq, ih]

/-- Where a pair is inserted depends on its key only. -/
theorem map_insertEntry_congr {β : Type} {f : κ × α → β} {k : κ} {v w : α}
    (h : f (k, v) = f (k, w)) (entries : List (κ × α)) :
    (insertEntry k v entries).map f = (insertEntry k w entries).map f := by
  induction entries with
  | nil => simp [insertEntry, h]
  | cons head rest ih =>
    unfold insertEntry
    split
    · simp [h]
    · split
      · simp [h]
      · simp [ih]

/-- Collect pairs in key order, a later pair replacing an earlier one of the same key. -/
def collect (pairs : List (κ × α)) : List (κ × α) :=
  pairs.foldl (fun sorted pair ↦ insertEntry pair.1 pair.2 sorted) []

theorem sorted_foldl_insertEntry {pairs sorted : List (κ × α)}
    (h : sorted.Pairwise fun a b ↦ a.1 < b.1) :
    (pairs.foldl (fun sorted pair ↦ insertEntry pair.1 pair.2 sorted) sorted).Pairwise
      fun a b ↦ a.1 < b.1 := by
  induction pairs generalizing sorted with
  | nil => exact h
  | cons head rest ih => exact ih (sorted_insertEntry head.1 head.2 h)

theorem find?_foldl_insertEntry {pairs sorted : List (κ × α)} (h : (pairs.map Prod.fst).Nodup)
    (k : κ) :
    (pairs.foldl (fun sorted pair ↦ insertEntry pair.1 pair.2 sorted) sorted).find?
        (fun pair ↦ pair.1 = k) =
      (pairs.find? fun pair ↦ pair.1 = k).or (sorted.find? fun pair ↦ pair.1 = k) := by
  induction pairs generalizing sorted with
  | nil => simp
  | cons head rest ih =>
    obtain ⟨hfresh, hrest⟩ := List.nodup_cons.mp h
    rw [List.foldl_cons, ih hrest, find?_insertEntry]
    by_cases hk : head.1 = k
    · have hnone : rest.find? (fun pair ↦ pair.1 = k) = none := by
        rw [List.find?_eq_none]
        intro pair hpair heq
        have hkey : pair.1 = k := by simpa using heq
        exact hfresh (List.mem_map.mpr ⟨pair, hpair, hkey.trans hk.symm⟩)
      rw [hnone, if_pos hk, List.find?_cons_of_pos (by simpa using hk)]
      rfl
    · rw [if_neg hk, List.find?_cons_of_neg (by simpa using hk)]

/-- Collecting pairs with distinct keys keeps the pair of each key. -/
theorem find?_collect {pairs : List (κ × α)} (h : (pairs.map Prod.fst).Nodup) (k : κ) :
    (collect pairs).find? (fun pair ↦ pair.1 = k) = pairs.find? fun pair ↦ pair.1 = k := by
  rw [collect, find?_foldl_insertEntry h]
  simp

namespace Map

/-- The map without entries. -/
def empty : Map κ α := ⟨[], List.Pairwise.nil⟩

/-- The value stored under a key. -/
def get? (map : Map κ α) (k : κ) : Option α :=
  (map.entries.find? fun pair ↦ pair.1 = k).map Prod.snd

/-- Store a value, replacing the one under an equal key. -/
def insert (map : Map κ α) (k : κ) (v : α) : Map κ α :=
  ⟨insertEntry k v map.entries, sorted_insertEntry k v map.sorted⟩

/-- Drop the value stored under a key. -/
def erase (map : Map κ α) (k : κ) : Map κ α :=
  ⟨map.entries.filter fun pair ↦ pair.1 ≠ k, map.sorted.sublist List.filter_sublist⟩

/-- Keep the values that satisfy a predicate. -/
def retain (map : Map κ α) (keep : α → Bool) : Map κ α :=
  ⟨map.entries.filter fun pair ↦ keep pair.2, map.sorted.sublist List.filter_sublist⟩

/-- Replace the values, dropping those that have no replacement. -/
def filterMap {β : Type} (f : α → Option β) (map : Map κ α) : Map κ β :=
  ⟨map.entries.filterMap fun pair ↦ (f pair.2).map fun v ↦ (pair.1, v), by
    rw [List.pairwise_filterMap]
    refine map.sorted.imp fun hlt a ha b hb ↦ ?_
    obtain ⟨v, -, rfl⟩ := Option.map_eq_some_iff.mp ha
    obtain ⟨w, -, rfl⟩ := Option.map_eq_some_iff.mp hb
    exact hlt⟩

def size (map : Map κ α) : ℕ := map.entries.length

def ofList (pairs : List (κ × α)) : Map κ α :=
  ⟨collect pairs, sorted_foldl_insertEntry List.Pairwise.nil⟩

@[simp]
theorem get?_empty (k : κ) : (empty : Map κ α).get? k = none := rfl

theorem get?_insert (map : Map κ α) (k : κ) (v : α) (other : κ) :
    (map.insert k v).get? other = if k = other then some v else map.get? other := by
  simp only [get?, insert, find?_insertEntry]
  split <;> rfl

theorem get?_insert_eq_none_iff (map : Map κ α) (k : κ) (v : α) (other : κ) :
    (map.insert k v).get? other = none ↔ k ≠ other ∧ map.get? other = none := by
  rw [get?_insert]
  split
  · rename_i hsame
    exact iff_of_false nofun fun h ↦ h.1 hsame
  · rename_i hne
    exact (and_iff_right hne).symm

theorem get?_erase (map : Map κ α) (k other : κ) :
    (map.erase k).get? other = if other = k then none else map.get? other := by
  simp only [get?, erase, List.find?_filter]
  by_cases h : other = k
  · rw [if_pos h, Option.map_eq_none_iff, List.find?_eq_none]
    intro pair _
    simp [h]
  · rw [if_neg h]
    congr 2
    funext pair
    by_cases hp : pair.1 = other <;> simp [hp, h]

theorem nodup_keys (map : Map κ α) : (map.entries.map Prod.fst).Nodup := by
  rw [List.Nodup, List.pairwise_map]
  exact map.sorted.imp fun h ↦ ne_of_lt h

theorem mem_entries_iff (map : Map κ α) (k : κ) (v : α) :
    (k, v) ∈ map.entries ↔ map.get? k = some v := by
  constructor
  · intro hmem
    cases hfind : map.entries.find? (fun pair ↦ pair.1 = k) with
    | none =>
      have hne := List.find?_eq_none.mp hfind (k, v) hmem
      simp at hne
    | some pair =>
      have hk : pair.1 = k := by simpa using List.find?_some hfind
      have heq : pair = (k, v) :=
        List.inj_on_of_nodup_map map.nodup_keys (List.mem_of_find?_eq_some hfind) hmem hk
      simp [get?, hfind, heq]
  · intro hget
    obtain ⟨pair, hfind, rfl⟩ := Option.map_eq_some_iff.mp hget
    have hk : pair.1 = k := by simpa using List.find?_some hfind
    exact hk ▸ List.mem_of_find?_eq_some hfind

theorem get?_eq_none_of_forall {map : Map κ α} {k : κ} (h : ∀ v, (k, v) ∉ map.entries) :
    map.get? k = none := by
  cases hget : map.get? k with
  | none => rfl
  | some v => exact absurd ((map.mem_entries_iff k v).mpr hget) (h v)

theorem mem_entries_iff_of_get? {left right : Map κ α} (h : ∀ k, left.get? k = right.get? k)
    (pair : κ × α) : pair ∈ left.entries ↔ pair ∈ right.entries := by
  rw [mem_entries_iff left pair.1 pair.2, mem_entries_iff right pair.1 pair.2, h]

/-- Two maps with the same lookups are equal. -/
theorem ext_get? {left right : Map κ α} (h : ∀ k, left.get? k = right.get? k) : left = right := by
  have hperm : left.entries.Perm right.entries := by
    refine (List.perm_ext_iff_of_nodup ?_ ?_).mpr (mem_entries_iff_of_get? h)
    · exact List.Nodup.of_map _ left.nodup_keys
    · exact List.Nodup.of_map _ right.nodup_keys
  have hentries : left.entries = right.entries := by
    refine hperm.eq_of_pairwise ?_ left.sorted right.sorted
    intro a b _ _ hab hba
    exact absurd (hab.trans hba) (lt_irrefl _)
  cases left
  cases right
  cases hentries
  rfl

theorem erase_insert {map : Map κ α} {k : κ} (h : map.get? k = none) (v : α) :
    (map.insert k v).erase k = map := by
  apply ext_get?
  intro other
  rw [get?_erase, get?_insert]
  by_cases heq : other = k
  · rw [if_pos heq, heq, h]
  · rw [if_neg heq, if_neg (Ne.symm heq)]

theorem insert_insert (map : Map κ α) (k : κ) (v w : α) :
    (map.insert k v).insert k w = map.insert k w := by
  apply ext_get?
  intro other
  rw [get?_insert, get?_insert, get?_insert]
  by_cases heq : k = other
  · rw [if_pos heq, if_pos heq]
  · rw [if_neg heq, if_neg heq, if_neg heq]

theorem insert_erase {map : Map κ α} {k : κ} {v : α} (h : map.get? k = some v) :
    (map.erase k).insert k v = map := by
  apply ext_get?
  intro other
  rw [get?_insert, get?_erase]
  by_cases heq : k = other
  · rw [if_pos heq, ← heq, h]
  · rw [if_neg heq, if_neg (Ne.symm heq)]

theorem size_insert_of_mem {map : Map κ α} {k : κ} (h : (map.get? k).isSome) (v : α) :
    (map.insert k v).size = map.size := by
  obtain ⟨old, hold⟩ := Option.isSome_iff_exists.mp h
  have hmem := (map.mem_entries_iff k old).mpr hold
  exact length_insertEntry v map.sorted (List.mem_map.mpr ⟨_, hmem, rfl⟩)

theorem size_insert_of_get?_eq_none {map : Map κ α} {k : κ} (h : map.get? k = none) (v : α) :
    (map.insert k v).size = map.size + 1 := by
  refine (perm_insertEntry v fun hk ↦ ?_).length_eq
  obtain ⟨⟨k', w⟩, hmem, rfl⟩ := List.mem_map.mp hk
  cases h.symm.trans ((map.mem_entries_iff k' w).mp hmem)

/-- A map all of whose values are kept does not change. -/
theorem size_erase_of_get? {map : Map κ α} {k : κ} {v : α} (h : map.get? k = some v) :
    (map.erase k).size + 1 = map.size := by
  have hgone : (map.erase k).get? k = none := by rw [get?_erase, if_pos rfl]
  rw [← size_insert_of_get?_eq_none hgone v, insert_erase h]

theorem size_erase_le (map : Map κ α) (k : κ) : (map.erase k).size ≤ map.size :=
  List.length_filter_le _ _

theorem size_insert_le (map : Map κ α) (k : κ) (v : α) : (map.insert k v).size ≤ map.size + 1 := by
  cases hget : map.get? k with
  | none => rw [size_insert_of_get?_eq_none hget]
  | some w =>
    rw [size_insert_of_mem (by simp [hget])]
    exact Nat.le_succ _

theorem retain_eq_self {map : Map κ α} {keep : α → Bool}
    (h : ∀ k v, map.get? k = some v → keep v = true) : map.retain keep = map := by
  have hentries : map.entries.filter (fun pair ↦ keep pair.2) = map.entries := by
    rw [List.filter_eq_self]
    intro pair hpair
    exact h pair.1 pair.2 ((map.mem_entries_iff _ _).mp hpair)
  cases map
  simpa only [retain, mk.injEq] using hentries

theorem get?_retain (map : Map κ α) (keep : α → Bool) (k : κ) :
    (map.retain keep).get? k = (map.get? k).filter keep := by
  cases hget : map.get? k with
  | none =>
    apply get?_eq_none_of_forall
    intro v hmem
    have hsome := (map.mem_entries_iff k v).mp (List.mem_filter.mp hmem).1
    cases hget.symm.trans hsome
  | some v =>
    cases hkeep : keep v with
    | true =>
      rw [Option.filter_some_pos hkeep, ← mem_entries_iff]
      exact List.mem_filter.mpr ⟨(map.mem_entries_iff k v).mpr hget, hkeep⟩
    | false =>
      rw [Option.filter_some_neg (by simp [hkeep])]
      apply get?_eq_none_of_forall
      intro w hmem
      obtain ⟨hmem, hkept⟩ := List.mem_filter.mp hmem
      have hsame := (map.mem_entries_iff k w).mp hmem
      cases hget.symm.trans hsame
      cases hkeep.symm.trans hkept

theorem get?_filterMap {β : Type} (f : α → Option β) (map : Map κ α) (k : κ) :
    (map.filterMap f).get? k = (map.get? k).bind f := by
  have hmem (w : β) : (k, w) ∈ (map.filterMap f).entries ↔
      ∃ v, map.get? k = some v ∧ f v = some w := by
    simp only [filterMap, List.mem_filterMap, Option.map_eq_some_iff, Prod.mk.injEq]
    constructor
    · rintro ⟨⟨k', v⟩, hpair, w', hf, rfl, rfl⟩
      exact ⟨v, (map.mem_entries_iff _ _).mp hpair, hf⟩
    · rintro ⟨v, hget, hf⟩
      exact ⟨(k, v), (map.mem_entries_iff _ _).mpr hget, w, hf, rfl, rfl⟩
  cases hget : (map.get? k).bind f with
  | some w =>
    rw [← mem_entries_iff, hmem]
    exact Option.bind_eq_some_iff.mp hget
  | none =>
    refine get?_eq_none_of_forall fun w hw ↦ ?_
    obtain ⟨v, hv, hf⟩ := (hmem w).mp hw
    rw [hv] at hget
    cases hget.symm.trans hf

/-- Inserting pairs with distinct keys keeps the pair of each key. -/
theorem get?_foldl_insert {β : Type} (f : β → α) {pairs : List (κ × β)}
    (h : (pairs.map Prod.fst).Nodup) (map : Map κ α) (k : κ) :
    (pairs.foldl (fun acc pair ↦ acc.insert pair.1 (f pair.2)) map).get? k =
      ((pairs.find? fun pair ↦ pair.1 = k).map fun pair ↦ f pair.2).or (map.get? k) := by
  induction pairs generalizing map with
  | nil => simp
  | cons head rest ih =>
    obtain ⟨hfresh, hrest⟩ := List.nodup_cons.mp h
    rw [List.foldl_cons, ih hrest, get?_insert]
    by_cases hk : head.1 = k
    · have hnone : rest.find? (fun pair ↦ pair.1 = k) = none := by
        rw [List.find?_eq_none]
        intro pair hpair heq
        have hkey : pair.1 = k := by simpa using heq
        exact hfresh (List.mem_map.mpr ⟨pair, hpair, hkey.trans hk.symm⟩)
      rw [hnone, if_pos hk, List.find?_cons_of_pos (by simpa using hk)]
      rfl
    · rw [if_neg hk, List.find?_cons_of_neg (by simpa using hk)]

/-- Fewer values, fewer entries. -/
theorem size_filterMap_le {β : Type} (f : α → Option β) (map : Map κ α) :
    (map.filterMap f).size ≤ map.size := List.length_filterMap_le _ _

theorem size_retain_le (map : Map κ α) (keep : α → Bool) : (map.retain keep).size ≤ map.size :=
  List.length_filter_le _ _

theorem get?_ofList {pairs : List (κ × α)} (h : (pairs.map Prod.fst).Nodup) (k : κ) :
    (ofList pairs).get? k = (pairs.find? fun pair ↦ pair.1 = k).map Prod.snd := by
  simp only [get?, ofList, find?_collect h]

end Map

end Cameo.Library.Ordered
