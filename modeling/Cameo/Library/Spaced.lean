import Mathlib.Data.List.Basic

/-!
# Words set apart by blanks

A line is a list of words with blanks between them, and possibly before and after.  However many
blanks there are, the words are what splitting at blanks and dropping empty pieces gives.  A text
is a list of lines with a delimiter between any two.
-/

namespace Cameo.Library

variable {α : Type} (blank : α → Bool)

/-- The pieces between blanks that are not empty. -/
def wordsOf [DecidableEq α] (text : List α) : List (List α) :=
  (text.splitOnP blank).filter (· ≠ [])

/-- A word is not empty and has no blank in it. -/
def IsWord (word : List α) : Prop := word ≠ [] ∧ ∀ c ∈ word, blank c = false

inductive Spaced : List (List α) → List α → Prop
  | blanks {gap : List α} (h : ∀ c ∈ gap, blank c = true) : Spaced [] gap
  | last {gap word : List α} (h : ∀ c ∈ gap, blank c = true) (hword : IsWord blank word) :
    Spaced [word] (gap ++ word)
  | next {gap word : List α} {words : List (List α)} {c : α} {rest : List α}
    (h : ∀ c ∈ gap, blank c = true) (hword : IsWord blank word) (hc : blank c = true)
    (hrest : Spaced words rest) : Spaced (word :: words) (gap ++ word ++ c :: rest)

variable {blank} [DecidableEq α]

theorem wordsOf_cons_blank {c : α} (hc : blank c = true) (rest : List α) :
    wordsOf blank (c :: rest) = wordsOf blank rest := by
  rw [wordsOf, List.splitOnP_cons_eq_if_modifyHead, if_pos hc, List.filter_cons_of_neg (by simp)]
  rfl

theorem wordsOf_gap_append {gap : List α} (h : ∀ c ∈ gap, blank c = true) (rest : List α) :
    wordsOf blank (gap ++ rest) = wordsOf blank rest := by
  induction gap with
  | nil => rfl
  | cons c gap ih =>
    rw [List.cons_append, wordsOf_cons_blank (h c List.mem_cons_self),
      ih fun d hd ↦ h d (List.mem_cons_of_mem c hd)]

theorem wordsOf_append_blank {c : α} (hc : blank c = true) (text : List α) :
    wordsOf blank (text ++ [c]) = wordsOf blank text := by
  rw [wordsOf, List.splitOnP_append_cons text [] hc, List.splitOnP_nil, List.filter_append,
    List.filter_cons_of_neg (by simp), List.filter_nil, List.append_nil]
  rfl

/-- A line is split into its words. -/
theorem wordsOf_of_spaced {words : List (List α)} {line : List α} (h : Spaced blank words line) :
    wordsOf blank line = words := by
  induction h with
  | @blanks gap h =>
    rw [← List.append_nil gap, wordsOf_gap_append h]
    rfl
  | @last gap word h hword =>
    rw [wordsOf_gap_append h, wordsOf, List.splitOnP_eq_singleton hword.2,
      List.filter_cons_of_pos (by simpa using hword.1)]
    rfl
  | @next gap word words c rest h hword hc hrest ih =>
    rw [List.append_assoc, wordsOf_gap_append h, wordsOf,
      List.splitOnP_append_cons_of_forall_mem hword.2 c hc,
      List.filter_cons_of_pos (by simpa using hword.1)]
    exact congrArg (word :: ·) ih

/-! ## Every line has its words -/

omit [DecidableEq α] in
theorem Spaced.cons_blank {words : List (List α)} {line : List α} (h : Spaced blank words line)
    {c : α} (hc : blank c = true) : Spaced blank words (c :: line) := by
  cases h with
  | blanks h => exact .blanks (List.forall_mem_cons.mpr ⟨hc, h⟩)
  | last h hword => exact .last (List.forall_mem_cons.mpr ⟨hc, h⟩) hword
  | next h hword hd hrest => exact .next (List.forall_mem_cons.mpr ⟨hc, h⟩) hword hd hrest

omit [DecidableEq α] in
/-- A character before a line begins its first word or is a word of its own. -/
theorem Spaced.exists_cons {words : List (List α)} {line : List α} (h : Spaced blank words line)
    {c : α} (hc : blank c = false) : ∃ words', Spaced blank words' (c :: line) := by
  have hone : IsWord blank [c] := ⟨List.cons_ne_nil c [], List.forall_mem_singleton.mpr hc⟩
  have hnone : ∀ c ∈ ([] : List α), blank c = true := fun c hc ↦ absurd hc List.not_mem_nil
  have hgrow : ∀ {word}, IsWord blank word → IsWord blank (c :: word) := fun hword ↦
    ⟨List.cons_ne_nil _ _, List.forall_mem_cons.mpr ⟨hc, hword.2⟩⟩
  cases h with
  | blanks h =>
    cases line with
    | nil => exact ⟨_, .last hnone hone⟩
    | cons d gap =>
      obtain ⟨hd, hgap⟩ := List.forall_mem_cons.mp h
      exact ⟨_, .next hnone hone hd (.blanks hgap)⟩
  | @last gap word h hword =>
    cases gap with
    | nil => exact ⟨_, .last hnone (hgrow hword)⟩
    | cons d gap =>
      obtain ⟨hd, hgap⟩ := List.forall_mem_cons.mp h
      exact ⟨_, .next hnone hone hd (.last hgap hword)⟩
  | @next gap word words e rest h hword he hrest =>
    cases gap with
    | nil => exact ⟨_, .next hnone (hgrow hword) he hrest⟩
    | cons d gap =>
      obtain ⟨hd, hgap⟩ := List.forall_mem_cons.mp h
      exact ⟨_, .next hnone hone hd (.next hgap hword he hrest)⟩

/-- A line has the words that splitting gives, and no others. -/
theorem spaced_iff {words : List (List α)} {line : List α} :
    Spaced blank words line ↔ wordsOf blank line = words := by
  have hex : ∃ words, Spaced blank words line := by
    induction line with
    | nil => exact ⟨[], .blanks nofun⟩
    | cons c rest ih =>
      obtain ⟨words, hwords⟩ := ih
      by_cases hc : blank c = true
      · exact ⟨words, hwords.cons_blank hc⟩
      · exact hwords.exists_cons (Bool.eq_false_iff.mpr hc)
  refine ⟨wordsOf_of_spaced, ?_⟩
  rintro rfl
  obtain ⟨words, hwords⟩ := hex
  rw [wordsOf_of_spaced hwords]
  exact hwords

end Cameo.Library
