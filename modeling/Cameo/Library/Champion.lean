import Mathlib.Data.Prod.Lex
import Mathlib.Data.List.Perm.Basic
import Mathlib.Data.List.Induction
import Mathlib.Data.List.Nodup

/-!
# The best of a list in one pass

A pass over a list that keeps the best item so far, under an arbitrary comparison.  If the
comparison comes from a key in a linear order, then what is kept has the least key.  If it only
decides between any two items, then what is kept may depend on the order of the list, and it does
unless there is an item that is better than every other.
-/

namespace Cameo.Library

variable {α β : Type}

section

variable (better : α → α → Bool)

/-- The best after one more item: the item, unless there is one already that it does not beat. -/
def challenge (best : Option α) (item : α) : Option α :=
  if best.all fun current ↦ better item current then some item else best

/-- The item that a pass over the list ends with. -/
def champion (items : List α) : Option α := items.foldl (challenge better) none

end

variable {better : α → α → Bool}

theorem champion_append_singleton (items : List α) (item : α) :
    champion better (items ++ [item]) = challenge better (champion better items) item :=
  List.foldl_concat _ _ _ _

theorem challenge_eq_or (best : Option α) (item : α) :
    challenge better best item = some item ∨ challenge better best item = best := by
  unfold challenge
  split
  · exact Or.inl rfl
  · exact Or.inr rfl

theorem challenge_ne_none (best : Option α) (item : α) : challenge better best item ≠ none := by
  cases best with
  | none => simp [challenge]
  | some current =>
    unfold challenge
    split
    · exact Option.some_ne_none _
    · exact Option.some_ne_none _

/-- A challenger that does not become the best has met one that it does not beat. -/
theorem challenge_eq_some_of_ne {best : Option α} {item current : α}
    (h : challenge better best item = some current) (hne : item ≠ current) :
    best = some current ∧ better item current = false := by
  unfold challenge at h
  split at h
  · exact absurd (Option.some.inj h) hne
  · rename_i hall
    rw [h, Option.all_some, Bool.not_eq_true] at hall
    exact ⟨h, hall⟩

theorem champion_eq_none_iff {items : List α} : champion better items = none ↔ items = [] := by
  constructor
  · intro h
    rcases List.eq_nil_or_concat items with hnil | ⟨early, last, rfl⟩
    · exact hnil
    · rw [List.concat_eq_append, champion_append_singleton] at h
      exact absurd h (challenge_ne_none _ _)
  · rintro rfl
    rfl

theorem champion_mem {items : List α} {best : α} (h : champion better items = some best) :
    best ∈ items := by
  induction items using List.reverseRecOn generalizing best with
  | nil => cases h
  | append_singleton early last ih =>
    rw [champion_append_singleton] at h
    rcases @challenge_eq_or _ better (champion better early) last with hlast | hearly
    · obtain rfl := Option.some.inj (hlast.symm.trans h)
      exact List.mem_append_right _ List.mem_cons_self
    · exact List.mem_append_left _ (ih (hearly.symm.trans h))

/-- A comparison that only looks at an image may be made on the images. -/
theorem map_champion {better' : β → β → Bool} {f : α → β}
    (h : ∀ a b, better a b = better' (f a) (f b)) (items : List α) :
    (champion better items).map f = champion better' (items.map f) := by
  induction items using List.reverseRecOn with
  | nil => rfl
  | append_singleton early last ih =>
    rw [champion_append_singleton, List.map_append, List.map_singleton, champion_append_singleton,
      ← ih]
    cases champion better early with
    | none => rfl
    | some current =>
      simp only [challenge, Option.all_some, Option.map_some, h]
      split
      · rfl
      · rfl

/-! ## Comparisons by a key -/

/-- A comparison field by field: the first field decides, unless it is the same on both sides. -/
theorem ite_ne_iff_toLex_lt {κ μ : Type} [LinearOrder κ] [LinearOrder μ] {a b : κ} {x y : μ}
    {rest : Bool} (h : rest = true ↔ x < y) :
    (if a ≠ b then decide (a < b) else rest) = true ↔ toLex (a, x) < toLex (b, y) := by
  rw [Prod.Lex.toLex_lt_toLex]
  by_cases hsame : a = b
  · rw [if_neg (not_not.mpr hsame), h]
    simp [hsame]
  · rw [if_pos hsame, decide_eq_true_eq]
    simp [hsame]

/-- A flag that is set comes before one that is not. -/
theorem ite_ne_flag (a b rest : Bool) :
    (if a ≠ b then a else rest) = if (!a) ≠ (!b) then decide ((!a) < (!b)) else rest := by
  cases a with
  | false =>
    cases b with
    | false => rfl
    | true => rfl
  | true =>
    cases b with
    | false => rfl
    | true => rfl

/-- What is kept has the least key. -/
theorem champion_le {κ : Type} [LinearOrder κ] {key : α → κ}
    (h : ∀ a b, better a b = true ↔ key a < key b) {items : List α} {best : α}
    (hbest : champion better items = some best) : ∀ item ∈ items, key best ≤ key item := by
  induction items using List.reverseRecOn generalizing best with
  | nil =>
    intro item hitem
    cases hitem
  | append_singleton early last ih =>
    rw [champion_append_singleton] at hbest
    cases hearly : champion better early with
    | none =>
      rw [champion_eq_none_iff] at hearly
      subst hearly
      obtain rfl : last = best := Option.some.inj hbest
      intro item hitem
      obtain rfl := List.mem_singleton.mp hitem
      exact le_rfl
    | some current =>
      have hleast := ih hearly
      rw [hearly] at hbest
      unfold challenge at hbest
      rw [Option.all_some] at hbest
      split at hbest
      · rename_i hbeats
        obtain rfl : last = best := Option.some.inj hbest
        intro item hitem
        rcases List.mem_append.mp hitem with hold | hnew
        · exact ((h last current).mp hbeats).le.trans (hleast item hold)
        · obtain rfl := List.mem_singleton.mp hnew
          exact le_rfl
      · rename_i hbeaten
        obtain rfl : current = best := Option.some.inj hbest
        intro item hitem
        rcases List.mem_append.mp hitem with hold | hnew
        · exact hleast item hold
        · obtain rfl := List.mem_singleton.mp hnew
          exact not_lt.mp fun hlt ↦ hbeaten ((h item current).mpr hlt)

/-- Where the places of the items grow along the list, nothing comes before what is kept in the
order by key and then by place. -/
theorem champion_first_le {κ μ : Type} [LinearOrder κ] [LinearOrder μ] {key : α → κ} {place : α → μ}
    (h : ∀ a b, better a b = true ↔ key a < key b) {items : List α}
    (hplaces : items.Pairwise fun a b ↦ place a < place b) {best : α}
    (hbest : champion better items = some best) :
    ∀ item ∈ items, toLex (key best, place best) ≤ toLex (key item, place item) := by
  induction items using List.reverseRecOn generalizing best with
  | nil => cases hbest
  | append_singleton early last ih =>
    obtain ⟨hearlyPlaces, -, hlastPlace⟩ := List.pairwise_append.mp hplaces
    rw [champion_append_singleton] at hbest
    intro item hitem
    rw [Prod.Lex.toLex_le_toLex]
    cases hearly : champion better early with
    | none =>
      rw [champion_eq_none_iff] at hearly
      subst hearly
      obtain rfl : last = best := Option.some.inj hbest
      obtain rfl := List.mem_singleton.mp hitem
      exact Or.inr ⟨rfl, le_rfl⟩
    | some current =>
      have hleast := ih hearlyPlaces hearly
      rw [hearly, challenge, Option.all_some] at hbest
      split at hbest
      · rename_i hbeats
        obtain rfl : last = best := Option.some.inj hbest
        rcases List.mem_append.mp hitem with hold | hnew
        · have hcurrent := champion_le h hearly item hold
          exact Or.inl (((h last current).mp hbeats).trans_le hcurrent)
        · obtain rfl := List.mem_singleton.mp hnew
          exact Or.inr ⟨rfl, le_rfl⟩
      · rename_i hbeaten
        obtain rfl : current = best := Option.some.inj hbest
        rcases List.mem_append.mp hitem with hold | hnew
        · exact Prod.Lex.toLex_le_toLex.mp (hleast item hold)
        · obtain rfl := List.mem_singleton.mp hnew
          have hkey : key current ≤ key item :=
            not_lt.mp fun hlt ↦ hbeaten ((h item current).mpr hlt)
          have hplace := hlastPlace current (champion_mem hearly) item List.mem_cons_self
          rcases hkey.lt_or_eq with hlt | heq
          · exact Or.inl hlt
          · exact Or.inr ⟨heq, hplace.le⟩

/-- What is kept is the first item of the least key. -/
theorem champion_eq_some_iff {κ μ : Type} [LinearOrder κ] [LinearOrder μ] {key : α → κ}
    {place : α → μ} (h : ∀ a b, better a b = true ↔ key a < key b) {items : List α}
    (hplaces : items.Pairwise fun a b ↦ place a < place b) {best : α} :
    champion better items = some best ↔
      best ∈ items ∧
        ∀ item ∈ items, toLex (key best, place best) ≤ toLex (key item, place item) := by
  constructor
  · exact fun hbest ↦ ⟨champion_mem hbest, champion_first_le h hplaces hbest⟩
  · rintro ⟨hmem, hleast⟩
    cases hkept : champion better items with
    | none =>
      rw [champion_eq_none_iff.mp hkept] at hmem
      cases hmem
    | some kept =>
      have hsame : toLex (key kept, place kept) = toLex (key best, place best) :=
        (champion_first_le h hplaces hkept best hmem).antisymm (hleast kept (champion_mem hkept))
      have hplace : place kept = place best := congrArg (fun pair ↦ (ofLex pair).2) hsame
      have hnodup : (items.map place).Nodup := List.pairwise_map.mpr (hplaces.imp ne_of_lt)
      rw [List.inj_on_of_nodup_map hnodup (champion_mem hkept) hmem hplace]

/-! ## Comparisons that only decide between two -/

/-- A comparison field by field decides if its last field does. -/
theorem ite_ne_eq_not {κ : Type} [LinearOrder κ] {a b : κ} {rest rest' : Bool}
    (h : rest = !rest') :
    (if a ≠ b then decide (a < b) else rest) = !if b ≠ a then decide (b < a) else rest' := by
  rcases lt_trichotomy a b with hlt | rfl | hgt
  · simp [hlt, hlt.ne, hlt.ne', hlt.not_gt]
  · simpa using h
  · simp [hgt, hgt.ne, hgt.ne', hgt.not_gt]

/-- Of any two different items exactly one is better. -/
def Decides (better : α → α → Bool) (items : List α) : Prop :=
  ∀ a ∈ items, ∀ b ∈ items, a ≠ b → better a b = !better b a

/-- An item that is better than every other of the list. -/
def BeatsAll (better : α → α → Bool) (items : List α) (best : α) : Prop :=
  best ∈ items ∧ ∀ other ∈ items, other ≠ best → better best other = true

theorem Decides.perm {items order : List α} (h : Decides better items) (hperm : order.Perm items) :
    Decides better order :=
  fun a ha b hb ↦ h a (hperm.mem_iff.mp ha) b (hperm.mem_iff.mp hb)

theorem BeatsAll.perm {items order : List α} {best : α} (h : BeatsAll better items best)
    (hperm : order.Perm items) : BeatsAll better order best :=
  ⟨hperm.mem_iff.mpr h.1, fun other hother ↦ h.2 other (hperm.mem_iff.mp hother)⟩

/-- An item that is better than every other is kept, wherever it stands. -/
theorem champion_of_beatsAll {items : List α} {best : α}
    (hdecides : Decides better items) (h : BeatsAll better items best) :
    champion better items = some best := by
  induction items using List.reverseRecOn with
  | nil => cases h.1
  | append_singleton early last ih =>
    have hmem (item : α) (hitem : item ∈ early) : item ∈ early ++ [last] :=
      List.mem_append_left _ hitem
    have hlast : last ∈ early ++ [last] := List.mem_append_right _ List.mem_cons_self
    rw [champion_append_singleton]
    by_cases heq : last = best
    · -- Whoever was kept before, if it is another item, is beaten now.
      subst heq
      cases hearly : champion better early with
      | none => rfl
      | some current =>
        by_cases hsame : current = last
        · subst hsame
          exact (challenge_eq_or _ _).elim id id
        · have hbeats := h.2 current (hmem current (champion_mem hearly)) hsame
          simp [challenge, hbeats]
    · have hearly : best ∈ early :=
        (List.mem_append.mp h.1).resolve_right fun hsingle ↦
          heq (List.mem_singleton.mp hsingle).symm
      have hkept := ih
        (fun a ha b hb ↦ hdecides a (hmem a ha) b (hmem b hb))
        ⟨hearly, fun other hother ↦ h.2 other (hmem other hother)⟩
      have hbeaten : better last best = false := by
        rw [hdecides last hlast best h.1 heq, h.2 last hlast heq]
        rfl
      rw [hkept]
      simp [challenge, hbeaten]

/-- The items may come from a list of sources, some of which have none.  What is kept is the same
in every order of the sources exactly when there is nothing to keep or an item that is better than
every other. -/
theorem champion_filterMap_perm_iff {f : β → Option α} {sources : List β}
    (hdecides : Decides better (sources.filterMap f)) :
    (∀ order : List β, order.Perm sources →
      champion better (order.filterMap f) = champion better (sources.filterMap f)) ↔
      sources.filterMap f = [] ∨ ∃ best, BeatsAll better (sources.filterMap f) best := by
  constructor
  · intro hsame
    cases hbest : champion better (sources.filterMap f) with
    | none => exact Or.inl (champion_eq_none_iff.mp hbest)
    | some best =>
      refine Or.inr ⟨best, champion_mem hbest, ?_⟩
      intro other hother hne
      -- Put the source of the other item last: it does not beat what was kept before it.
      obtain ⟨source, hsource, hitem⟩ := List.mem_filterMap.mp hother
      obtain ⟨early, late, hsplit⟩ := List.append_of_mem hsource
      have hlast : (early ++ late ++ [source]).Perm sources := by
        rw [hsplit]
        exact (List.perm_append_singleton _ _).trans List.perm_middle.symm
      have hkept := hsame _ hlast
      rw [hbest, List.filterMap_append, List.filterMap_cons_some hitem, List.filterMap_nil,
        champion_append_singleton] at hkept
      have hbeaten := (challenge_eq_some_of_ne hkept hne).2
      rw [hdecides best (champion_mem hbest) other hother hne.symm, hbeaten]
      rfl
  · intro hcases order hperm
    have hranks := hperm.filterMap f
    rcases hcases with hnil | ⟨best, hbest⟩
    · rw [hnil] at hranks
      rw [hnil, hranks.eq_nil]
    · rw [champion_of_beatsAll hdecides hbest,
        champion_of_beatsAll (hdecides.perm hranks) (hbest.perm hranks)]

end Cameo.Library
