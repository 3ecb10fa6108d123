import Mathlib.Data.List.Nodup
import Mathlib.Data.List.Perm.Subperm
import Mathlib.Data.List.Range
import Mathlib.Data.Nat.Find

/-!
# Matching by a key

Two lists are matched position by position: each left position in turn is given the one right
position not given yet that carries its key, and nothing where there is none or more than one.  What
a pass gives is described without the pass: a position is given its only candidate exactly when no
earlier open position has the same key.
-/

namespace Cameo.Library

/-! ## Positions of a list -/

variable {α : Type}

def positions (xs : List α) (p : α → Bool) : List ℕ :=
  (List.range xs.length).filter fun i ↦ xs[i]?.any p

theorem mem_positions {xs : List α} {p : α → Bool} {i : ℕ} :
    i ∈ positions xs p ↔ ∃ x, xs[i]? = some x ∧ p x = true := by
  rw [positions, List.mem_filter, List.mem_range, Option.any_eq_true]
  refine and_iff_right_of_imp ?_
  rintro ⟨x, hx, -⟩
  exact (List.getElem?_eq_some_iff.mp hx).1

theorem nodup_positions (xs : List α) (p : α → Bool) : (positions xs p).Nodup :=
  List.nodup_range.filter _

/-- The elements at the positions of a condition are those that meet it. -/
theorem filterMap_positions (xs : List α) (p : α → Bool) :
    (positions xs p).filterMap (xs[·]?) = xs.filter p := by
  induction xs with
  | nil => rfl
  | cons x xs ih =>
    have htail : ((List.range xs.length).map Nat.succ).filter (fun i ↦ (x :: xs)[i]?.any p) =
        (positions xs p).map Nat.succ := by
      rw [positions, List.filter_map]
      rfl
    rw [positions, List.length_cons, List.range_succ_eq_map, List.filter_cons, htail]
    have hrest : ((positions xs p).map Nat.succ).filterMap ((x :: xs)[·]?) = xs.filter p := by
      rw [List.filterMap_map, ← ih]
      rfl
    by_cases hx : p x = true
    · simp only [List.getElem?_cons_zero, Option.any_some, hx, if_true, List.filterMap_cons, hrest,
        List.filter_cons]
    · simp only [List.getElem?_cons_zero, Option.any_some, hx, if_false, hrest, List.filter_cons,
        Bool.false_eq_true]

theorem length_positions (xs : List α) (p : α → Bool) :
    (positions xs p).length = (xs.filter p).length := by
  rw [← filterMap_positions, List.length_filterMap_eq_countP, List.countP_eq_length.mpr]
  intro i hi
  obtain ⟨x, hx, -⟩ := mem_positions.mp hi
  rw [hx]
  rfl

/-- A condition met at one position only is met by one element only. -/
theorem filter_eq_singleton_of_positions {xs : List α} {p : α → Bool} {i : ℕ} {x : α}
    (h : positions xs p = [i]) (hx : xs[i]? = some x) : xs.filter p = [x] := by
  rw [← filterMap_positions, h, List.filterMap_cons, hx, List.filterMap_nil]

/-- A condition met by one element only is met at one position only. -/
theorem exists_positions_eq_singleton {xs : List α} {p : α → Bool} {x : α}
    (h : xs.filter p = [x]) : ∃ i, positions xs p = [i] ∧ xs[i]? = some x := by
  have hlength : (positions xs p).length = 1 := by rw [length_positions, h, List.length_singleton]
  obtain ⟨i, hi⟩ := List.length_eq_one_iff.mp hlength
  obtain ⟨y, hy, -⟩ := mem_positions.mp (hi ▸ List.mem_singleton_self i)
  have := (filter_eq_singleton_of_positions hi hy).symm.trans h
  exact ⟨i, hi, hy.trans (congrArg some (List.singleton_inj.mp this))⟩

/-- A list without repetitions is a singleton exactly if it has one member. -/
theorem eq_singleton_iff_of_nodup {xs : List α} (h : xs.Nodup) {x : α} :
    xs = [x] ↔ x ∈ xs ∧ ∀ y ∈ xs, y = x := by
  constructor
  · rintro rfl
    exact ⟨List.mem_singleton_self x, fun y hy ↦ List.mem_singleton.mp hy⟩
  · rintro ⟨hx, hsole⟩
    refine List.perm_singleton.mp ((List.perm_ext_iff_of_nodup h (List.nodup_singleton x)).mpr ?_)
    exact fun y ↦ ⟨fun hy ↦ List.mem_singleton.mpr (hsole y hy), fun hy ↦
      List.mem_singleton.mp hy ▸ hx⟩

/-- A condition met at one position only. -/
theorem positions_eq_singleton_iff {xs : List α} {p : α → Bool} {i : ℕ} :
    positions xs p = [i] ↔ (∃ x, xs[i]? = some x ∧ p x = true) ∧
      ∀ i' x, xs[i']? = some x → p x = true → i' = i := by
  rw [eq_singleton_iff_of_nodup (nodup_positions xs p), mem_positions]
  refine and_congr_right fun _ ↦ ⟨fun h i' x hx hp ↦ h i' (mem_positions.mpr ⟨x, hx, hp⟩), ?_⟩
  intro h i' hi'
  obtain ⟨x, hx, hp⟩ := mem_positions.mp hi'
  exact h i' x hx hp

/-- A condition that is met at a position is met at one position only if it is met there only. -/
theorem exists_positions_iff {xs : List α} {p : α → Bool} {i : ℕ} {x : α} (hx : xs[i]? = some x)
    (hp : p x = true) :
    (∃ i₀, positions xs p = [i₀]) ↔ ∀ i' x', xs[i']? = some x' → p x' = true → i' = i := by
  constructor
  · rintro ⟨i₀, hi₀⟩ i' x' hx' hp'
    have hunique := (positions_eq_singleton_iff.mp hi₀).2
    exact (hunique i' x' hx' hp').trans (hunique i x hx hp).symm
  · intro h
    exact ⟨i, positions_eq_singleton_iff.mpr ⟨⟨x, hx, hp⟩, h⟩⟩

theorem of_filter_eq_singleton {xs : List α} {p : α → Bool} {x : α} (h : xs.filter p = [x]) :
    x ∈ xs ∧ p x = true :=
  List.mem_filter.mp (h ▸ List.mem_singleton_self x)

/-- A condition met by one element only is met at its position only. -/
theorem filter_eq_singleton_iff {xs : List α} {p : α → Bool} {i : ℕ} {x : α}
    (hx : xs[i]? = some x) (hp : p x = true) :
    xs.filter p = [x] ↔ ∀ i' x', xs[i']? = some x' → p x' = true → i' = i := by
  constructor
  · intro h
    obtain ⟨i₀, hi₀, -⟩ := exists_positions_eq_singleton h
    exact (exists_positions_iff hx hp).mp ⟨i₀, hi₀⟩
  · intro h
    exact filter_eq_singleton_of_positions (positions_eq_singleton_iff.mpr ⟨⟨x, hx, hp⟩, h⟩) hx

theorem countP_eq_one_iff {xs : List α} {p : α → Bool} {i : ℕ} {x : α}
    (hx : xs[i]? = some x) (hp : p x = true) :
    xs.countP p = 1 ↔ ∀ i' x', xs[i']? = some x' → p x' = true → i' = i := by
  rw [List.countP_eq_length_filter, ← length_positions, List.length_eq_one_iff]
  exact exists_positions_iff hx hp

/-- A condition met by two elements is met at a position other than a given one. -/
theorem exists_ne_of_two_le_countP {xs : List α} {p : α → Bool} (h : 2 ≤ xs.countP p) (i₀ : ℕ) :
    ∃ i x, i ≠ i₀ ∧ xs[i]? = some x ∧ p x = true := by
  by_contra hnone
  have hsub : positions xs p ⊆ [i₀] := by
    intro i hi
    obtain ⟨x, hx, hp⟩ := mem_positions.mp hi
    by_contra hne
    exact hnone ⟨i, x, fun heq ↦ hne (List.mem_singleton.mpr heq), hx, hp⟩
  have hle := ((nodup_positions xs p).subperm hsub).length_le
  rw [length_positions, ← List.countP_eq_length_filter, List.length_singleton] at hle
  omega

/-- A condition met at two positions is met by two elements. -/
theorem two_le_countP {xs : List α} {p : α → Bool} {i i' : ℕ} (hi : i ∈ positions xs p)
    (hi' : i' ∈ positions xs p) (hne : i ≠ i') : 2 ≤ xs.countP p := by
  have hnodup : [i, i'].Nodup :=
    List.nodup_cons.mpr ⟨fun h ↦ hne (List.mem_singleton.mp h), List.nodup_singleton i'⟩
  have hsub : [i, i'] ⊆ positions xs p :=
    List.cons_subset.mpr ⟨hi, List.cons_subset.mpr ⟨hi', List.nil_subset _⟩⟩
  have hle := (hnodup.subperm hsub).length_le
  rwa [length_positions, ← List.countP_eq_length_filter] at hle

/-- The only element that meets a condition. -/
def sole (xs : List α) (p : α → Bool) : Option α :=
  match xs.filter p with
  | [x] => some x
  | _ => none

theorem sole_eq_some_iff {xs : List α} {p : α → Bool} {x : α} :
    sole xs p = some x ↔ xs.filter p = [x] := by
  unfold sole
  split
  · rename_i y hy
    rw [hy, Option.some_inj, List.singleton_inj]
  · rename_i hnone
    exact iff_of_false nofun (hnone x)

theorem sole_perm {xs ys : List α} (h : xs.Perm ys) (p : α → Bool) : sole xs p = sole ys p := by
  ext x
  rw [sole_eq_some_iff, sole_eq_some_iff]
  have hperm := h.filter p
  constructor
  · intro hx
    rw [hx] at hperm
    exact List.perm_singleton.mp hperm.symm
  · intro hx
    rw [hx] at hperm
    exact List.perm_singleton.mp hperm

/-! ## Claims -/

variable {κ : Type} [DecidableEq κ]

/-- The right positions not given yet that carry the key of a left position. -/
def candidates (key other : ℕ → Option κ) (m : ℕ) (given : List (ℕ × ℕ)) (i : ℕ) : List ℕ :=
  (List.range m).filter fun j ↦ j ∉ given.map Prod.snd ∧ (key i).isSome ∧ other j = key i

/-- A left position is given its only candidate. -/
def claim (key other : ℕ → Option κ) (m : ℕ) (given : List (ℕ × ℕ)) (i : ℕ) : List (ℕ × ℕ) :=
  if i ∈ given.map Prod.fst then given
  else
    match candidates key other m given i with
    | [j] => given ++ [(i, j)]
    | _ => given

/-- The left positions claim in order. -/
def claimAll (key other : ℕ → Option κ) (m n : ℕ) (given : List (ℕ × ℕ)) : List (ℕ × ℕ) :=
  (List.range n).foldl (claim key other m) given

structure Paired (given : List (ℕ × ℕ)) : Prop where
  left : (given.map Prod.fst).Nodup
  right : (given.map Prod.snd).Nodup

variable {key other : ℕ → Option κ} {m n : ℕ} {given : List (ℕ × ℕ)} {i j : ℕ}

theorem mem_lefts_iff : i ∈ given.map Prod.fst ↔ ∃ j, (i, j) ∈ given := by
  simp only [List.mem_map, Prod.exists, exists_and_right, exists_eq_right]

theorem mem_rights_iff : j ∈ given.map Prod.snd ↔ ∃ i, (i, j) ∈ given := by
  simp only [List.mem_map, Prod.exists, exists_eq_right]

theorem mem_candidates :
    j ∈ candidates key other m given i ↔
      j < m ∧ j ∉ given.map Prod.snd ∧ (key i).isSome ∧ other j = key i := by
  rw [candidates, List.mem_filter, List.mem_range, decide_eq_true_eq]

theorem candidates_eq_singleton_iff :
    candidates key other m given i = [j] ↔
      (j < m ∧ j ∉ given.map Prod.snd ∧ (key i).isSome ∧ other j = key i) ∧
        ∀ j' < m, j' ∉ given.map Prod.snd → other j' = key i → j' = j := by
  have hnodup : (candidates key other m given i).Nodup := List.nodup_range.filter _
  rw [eq_singleton_iff_of_nodup hnodup, mem_candidates]
  refine and_congr_right fun hj ↦ ⟨fun h j' hlt hfree hkey ↦ ?_, fun h j' hj' ↦ ?_⟩
  · exact h j' (mem_candidates.mpr ⟨hlt, hfree, hj.2.2.1, hkey⟩)
  · obtain ⟨hlt, hfree, -, hkey⟩ := mem_candidates.mp hj'
    exact h j' hlt hfree hkey

theorem candidates_congr {i' : ℕ} (h : key i' = key i) :
    candidates key other m given i' = candidates key other m given i := by
  unfold candidates
  rw [h]

theorem candidates_eq_nil (h : key i = none) : candidates key other m given i = [] :=
  List.filter_eq_nil_iff.mpr fun j _ hj ↦ by
    rw [decide_eq_true_eq, h] at hj
    exact absurd hj.2.1 Bool.false_ne_true

theorem Paired.nil : Paired [] := ⟨List.nodup_nil, List.nodup_nil⟩

theorem Paired.concat (h : Paired given) (hi : i ∉ given.map Prod.fst)
    (hj : j ∉ given.map Prod.snd) : Paired (given ++ [(i, j)]) := by
  constructor
  · rw [List.map_append, List.map_singleton]
    refine List.nodup_append.mpr ⟨h.left, List.nodup_singleton i, ?_⟩
    rintro x hx y hy rfl
    obtain rfl : x = i := List.mem_singleton.mp hy
    exact hi hx
  · rw [List.map_append, List.map_singleton]
    refine List.nodup_append.mpr ⟨h.right, List.nodup_singleton j, ?_⟩
    rintro x hx y hy rfl
    obtain rfl : x = j := List.mem_singleton.mp hy
    exact hj hx

theorem Paired.left_unique {i' : ℕ} (h : Paired given) (hmem : (i, j) ∈ given)
    (hmem' : (i', j) ∈ given) : i = i' :=
  congrArg Prod.fst (List.inj_on_of_nodup_map h.right hmem hmem' rfl)

/-- A pass without the positions it goes through: the only candidate, and no earlier open position
with the same key. -/
structure Claims (key other : ℕ → Option κ) (m : ℕ) (given : List (ℕ × ℕ)) (i j : ℕ) : Prop where
  isOpen : i ∉ given.map Prod.fst
  sole : candidates key other m given i = [j]
  first : ∀ i' < i, i' ∉ given.map Prod.fst → key i' ≠ key i

/-- What a left position can claim. -/
theorem claim_cases (key other : ℕ → Option κ) (m : ℕ) (given : List (ℕ × ℕ)) (i : ℕ) :
    (∃ j, i ∉ given.map Prod.fst ∧ candidates key other m given i = [j] ∧
      claim key other m given i = given ++ [(i, j)]) ∨
    ((i ∈ given.map Prod.fst ∨ ∀ j, candidates key other m given i ≠ [j]) ∧
      claim key other m given i = given) := by
  unfold claim
  by_cases hi : i ∈ given.map Prod.fst
  · exact .inr ⟨.inl hi, if_pos hi⟩
  · rw [if_neg hi]
    split
    · rename_i j hj
      exact .inl ⟨j, hi, hj, rfl⟩
    · rename_i hnone
      exact .inr ⟨.inr hnone, rfl⟩

theorem claimAll_succ (key other : ℕ → Option κ) (m n : ℕ) (given : List (ℕ × ℕ)) :
    claimAll key other m (n + 1) given =
      claim key other m (claimAll key other m n given) n := by
  rw [claimAll, List.range_succ, List.foldl_append]
  rfl

/-- A pass only adds pairs. -/
theorem exists_claimAll_eq (key other : ℕ → Option κ) (m n : ℕ) (given : List (ℕ × ℕ)) :
    ∃ new, claimAll key other m n given = given ++ new := by
  induction n with
  | zero => exact ⟨[], (List.append_nil given).symm⟩
  | succ n ih =>
    obtain ⟨new, hnew⟩ := ih
    rw [claimAll_succ, hnew]
    obtain ⟨j, -, -, heq⟩ | ⟨-, heq⟩ := claim_cases key other m (given ++ new) n
    · exact ⟨new ++ [(n, j)], by rw [heq, List.append_assoc]⟩
    · exact ⟨new, heq⟩

theorem Paired.claim (h : Paired given) (i : ℕ) : Paired (claim key other m given i) := by
  obtain ⟨j, hi, hj, heq⟩ | ⟨-, heq⟩ := claim_cases key other m given i
  · rw [heq]
    exact h.concat hi (mem_candidates.mp (hj ▸ List.mem_singleton_self j)).2.1
  · rw [heq]
    exact h

theorem Paired.claimAll (h : Paired given) (n : ℕ) : Paired (claimAll key other m n given) := by
  induction n with
  | zero => exact h
  | succ n ih =>
    rw [claimAll_succ]
    exact ih.claim n

/-- The only candidate of an open position is claimed by the first open position with its key. -/
theorem exists_claims (hopen : i ∉ given.map Prod.fst)
    (hsole : candidates key other m given i = [j]) :
    ∃ i' ≤ i, key i' = key i ∧ Claims key other m given i' j := by
  classical
  have hex : ∃ i', i' ∉ given.map Prod.fst ∧ key i' = key i := ⟨i, hopen, rfl⟩
  obtain ⟨hfree, hkey⟩ := Nat.find_spec hex
  refine ⟨Nat.find hex, Nat.find_min' hex ⟨hopen, rfl⟩, hkey, hfree, ?_, ?_⟩
  · rw [candidates_congr hkey, hsole]
  · intro i' hlt hfree' hkey'
    exact Nat.find_min hex hlt ⟨hfree', hkey'.trans hkey⟩

/-- A claim in terms of the key it goes by. -/
theorem claims_iff : Claims key other m given i j ↔
    ∃ k, key i = some k ∧ other j = some k ∧ i ∉ given.map Prod.fst ∧
      (j < m ∧ j ∉ given.map Prod.snd) ∧
      (∀ j' < m, j' ∉ given.map Prod.snd → other j' = some k → j' = j) ∧
      ∀ i', i' ∉ given.map Prod.fst → key i' = some k → i ≤ i' := by
  constructor
  · rintro ⟨hopen, hsole, hfirst⟩
    obtain ⟨⟨hlt, hfree, hsome, hother⟩, hunique⟩ := candidates_eq_singleton_iff.mp hsole
    obtain ⟨k, hk⟩ := Option.isSome_iff_exists.mp hsome
    rw [hk] at hother hunique
    refine ⟨k, hk, hother, hopen, ⟨hlt, hfree⟩, hunique, fun i' hopen' hk' ↦ ?_⟩
    by_contra hlt'
    exact hfirst i' (Nat.lt_of_not_le hlt') hopen' (hk'.trans hk.symm)
  · rintro ⟨k, hk, hother, hopen, ⟨hlt, hfree⟩, hunique, hfirst⟩
    refine ⟨hopen, candidates_eq_singleton_iff.mpr ?_, fun i' hlt' hopen' hk' ↦ ?_⟩
    · rw [hk]
      exact ⟨⟨hlt, hfree, rfl, hother⟩, hunique⟩
    · exact absurd (hfirst i' hopen' (hk'.trans hk)) (Nat.not_le_of_lt hlt')

/-! ### What a pass gives -/

section Before

variable {before : List (ℕ × ℕ)}
  (hbefore : ∀ {i j}, (i, j) ∈ before ↔
    (i, j) ∈ given ∨ i < n ∧ Claims key other m given i j)
include hbefore

/-- The position a pass has come to is still open if it was. -/
theorem open_before_iff : n ∈ before.map Prod.fst ↔ n ∈ given.map Prod.fst := by
  constructor
  · intro h
    obtain ⟨⟨i, j⟩, hmem, rfl⟩ := List.mem_map.mp h
    obtain hgiven | ⟨hlt, -⟩ := hbefore.mp hmem
    · exact List.mem_map_of_mem hgiven
    · exact absurd hlt (lt_irrefl _)
  · intro h
    obtain ⟨⟨i, j⟩, hmem, rfl⟩ := List.mem_map.mp h
    exact List.mem_map_of_mem (hbefore.mpr (.inl hmem))

/-- A candidate given during the pass was the only one, and an equal key has claimed it. -/
theorem exists_of_candidate_given (hj : j ∈ candidates key other m given n)
    (h : j ∈ before.map Prod.snd) :
    ∃ i' < n, i' ∉ given.map Prod.fst ∧ key i' = key n ∧
      candidates key other m given n = [j] := by
  obtain ⟨-, hfree, -, hother⟩ := mem_candidates.mp hj
  obtain ⟨⟨i', j'⟩, hmem, rfl⟩ := List.mem_map.mp h
  obtain hgiven | ⟨hlt, hclaims⟩ := hbefore.mp hmem
  · exact absurd (List.mem_map_of_mem hgiven) hfree
  · have hown := mem_candidates.mp (hclaims.sole ▸ List.mem_singleton_self j')
    have hkey : key i' = key n := hown.2.2.2.symm.trans hother
    exact ⟨i', hlt, hclaims.isOpen, hkey, (candidates_congr hkey).symm.trans hclaims.sole⟩

theorem candidates_before : candidates key other m before n =
    (candidates key other m given n).filter fun j ↦ j ∉ before.map Prod.snd := by
  rw [candidates, candidates, List.filter_filter]
  refine List.filter_congr fun j _ ↦ ?_
  have hmono : j ∈ given.map Prod.snd → j ∈ before.map Prod.snd := by
    intro h
    obtain ⟨⟨i, j⟩, hmem, rfl⟩ := List.mem_map.mp h
    exact List.mem_map_of_mem (hbefore.mpr (.inl hmem))
  rw [← Bool.decide_and, decide_eq_decide]
  tauto

/-- The position a pass has come to has one candidate left exactly if it had one from the start and
nobody with its key came earlier. -/
theorem candidates_before_eq_singleton_iff : candidates key other m before n = [j] ↔
    candidates key other m given n = [j] ∧
      ∀ i' < n, i' ∉ given.map Prod.fst → key i' ≠ key n := by
  rw [candidates_before hbefore]
  constructor
  · intro h
    obtain ⟨hj, hfree⟩ := List.mem_filter.mp (h ▸ List.mem_singleton_self j)
    have hfirst : ∀ i' < n, i' ∉ given.map Prod.fst → key i' = key n →
        ∀ j', candidates key other m given n ≠ [j'] := by
      intro i' hlt hopen' hkey j' hj'
      obtain ⟨i₀, hle, -, hclaims⟩ := exists_claims hopen' ((candidates_congr hkey).trans hj')
      have hmem : (i₀, j') ∈ before := hbefore.mpr (.inr ⟨lt_of_le_of_lt hle hlt, hclaims⟩)
      obtain rfl := List.mem_singleton.mp (hj' ▸ hj)
      exact of_decide_eq_true hfree (List.mem_map_of_mem hmem)
    have hall : candidates key other m given n = [j] := by
      by_cases hex : ∃ j' ∈ candidates key other m given n, j' ∈ before.map Prod.snd
      · obtain ⟨j', hj', hgiven⟩ := hex
        obtain ⟨i', hlt, hopen', hkey, heq⟩ := exists_of_candidate_given hbefore hj' hgiven
        exact absurd heq (hfirst i' hlt hopen' hkey j')
      · rw [← h, List.filter_eq_self.mpr]
        intro j' hj'
        exact decide_eq_true fun hgiven ↦ hex ⟨j', hj', hgiven⟩
    exact ⟨hall, fun i' hlt hopen' hkey ↦ hfirst i' hlt hopen' hkey j hall⟩
  · rintro ⟨h, hfirst⟩
    rw [h, List.filter_cons_of_pos, List.filter_nil]
    refine decide_eq_true fun hgiven ↦ ?_
    obtain ⟨i', hlt, hopen', hkey, -⟩ :=
      exists_of_candidate_given hbefore (h ▸ List.mem_singleton_self j) hgiven
    exact hfirst i' hlt hopen' hkey

end Before

/-- A pass gives a position its only candidate unless an equal key comes earlier. -/
theorem mem_claimAll_iff : (i, j) ∈ claimAll key other m n given ↔
    (i, j) ∈ given ∨ i < n ∧ Claims key other m given i j := by
  induction n generalizing i j with
  | zero => exact (or_iff_left fun h ↦ Nat.not_lt_zero _ h.1).symm
  | succ n ih =>
    rw [claimAll_succ]
    set before := claimAll key other m n given
    have hclaims : n ∉ given.map Prod.fst →
        ∀ {j}, candidates key other m before n = [j] ↔ Claims key other m given n j :=
      fun h _ ↦ (candidates_before_eq_singleton_iff ih).trans
        ⟨fun hs ↦ ⟨h, hs.1, hs.2⟩, fun hc ↦ ⟨hc.sole, hc.first⟩⟩
    have hsplit : (i, j) ∈ given ∨ i < n + 1 ∧ Claims key other m given i j ↔
        (i, j) ∈ before ∨ i = n ∧ Claims key other m given n j := by
      rw [ih, Nat.lt_succ_iff_lt_or_eq, or_assoc]
      refine or_congr_right ?_
      rw [or_and_right]
      exact or_congr_right (and_congr_right fun h ↦ by rw [h])
    rw [hsplit]
    obtain ⟨j₀, hfree, hj₀, heq⟩ | ⟨hnone, heq⟩ := claim_cases key other m before n
    · rw [heq, List.mem_append, List.mem_singleton, Prod.mk.injEq]
      refine or_congr_right (and_congr_right fun _ ↦ ?_)
      rw [← hclaims (mt (open_before_iff ih).mpr hfree), hj₀, List.singleton_inj, eq_comm]
    · rw [heq]
      refine (or_iff_left ?_).symm
      rintro ⟨-, hc⟩
      obtain hgiven | hnone := hnone
      · exact hc.isOpen ((open_before_iff ih).mp hgiven)
      · exact hnone j ((hclaims hc.isOpen).mpr hc)

end Cameo.Library
