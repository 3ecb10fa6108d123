import Mathlib.Data.List.Infix

/-!
# Searching a list for a needle

The first place at which a list continues with a needle.  For a needle of two different items, as a
line end is, the place is found after a line that holds no needle, whatever follows: none can
straddle the end of the line.
-/

namespace Cameo.Library

variable {α : Type} [DecidableEq α]

/-- The first place at which a nonempty needle stands. -/
def findSubslice (needle : List α) : List α → Option ℕ
  | [] => none
  | item :: rest =>
    if needle.isPrefixOf (item :: rest) then some 0
    else (findSubslice needle rest).map (· + 1)

/-- What stands before, at and after the place found. -/
theorem findSubslice_split {needle hay : List α} {place : ℕ}
    (h : findSubslice needle hay = some place) :
    hay = hay.take place ++ needle ++ hay.drop (place + needle.length) := by
  induction hay generalizing place with
  | nil => cases h
  | cons item rest ih =>
    unfold findSubslice at h
    split at h
    · rename_i hhere
      obtain ⟨after, hafter⟩ := List.isPrefixOf_iff_prefix.mp hhere
      cases h
      rw [List.take_zero, List.nil_append, Nat.zero_add, ← hafter, List.drop_left]
    · obtain ⟨before, hbefore, rfl⟩ := Option.map_eq_some_iff.mp h
      rw [Nat.add_right_comm, List.take_succ_cons, List.drop_succ_cons, List.cons_append,
        List.cons_append, ← ih hbefore]

/-- The place is inside the list. -/
theorem findSubslice_length_le {needle hay : List α} {place : ℕ}
    (h : findSubslice needle hay = some place) : place + needle.length ≤ hay.length := by
  induction hay generalizing place with
  | nil => cases h
  | cons item rest ih =>
    unfold findSubslice at h
    split at h
    · rename_i hhere
      cases h
      simpa using (List.isPrefixOf_iff_prefix.mp hhere).length_le
    · obtain ⟨before, hbefore, rfl⟩ := Option.map_eq_some_iff.mp h
      have hinside := ih hbefore
      rw [List.length_cons]
      omega

/-- What stands before the place holds no needle. -/
theorem findSubslice_take {needle hay : List α} {place : ℕ}
    (h : findSubslice needle hay = some place) : findSubslice needle (hay.take place) = none := by
  induction hay generalizing place with
  | nil => cases h
  | cons item rest ih =>
    unfold findSubslice at h
    split at h
    · cases h
      rfl
    · rename_i helse
      obtain ⟨before, hbefore, rfl⟩ := Option.map_eq_some_iff.mp h
      rw [List.take_succ_cons, findSubslice, ih hbefore, if_neg, Option.map_none]
      intro hhere
      apply helse
      rw [List.isPrefixOf_iff_prefix] at hhere ⊢
      exact hhere.trans ((List.prefix_cons_inj item).mpr (List.take_prefix before rest))

/-- A line without the needle ends where the needle follows it. -/
theorem findSubslice_line {first second : α} (hne : first ≠ second) {line : List α}
    (h : findSubslice [first, second] line = none) (rest : List α) :
    findSubslice [first, second] (line ++ ([first, second] ++ rest)) = some line.length := by
  induction line with
  | nil => simp [findSubslice]
  | cons item line ih =>
    unfold findSubslice at h
    split at h
    · cases h
    · rename_i helse
      have hnext := ih (Option.map_eq_none_iff.mp h)
      rw [List.cons_append, findSubslice, hnext, if_neg, Option.map_some, List.length_cons]
      -- A needle here would stand in the line, or begin with its last item.
      intro hhere
      apply helse
      cases line with
      | nil =>
        simp only [List.nil_append, List.cons_append, List.isPrefixOf_cons_cons, Bool.and_eq_true,
          beq_iff_eq] at hhere
        exact absurd hhere.2.1.symm hne
      | cons next line => simpa using hhere

/-- What is found is found whatever follows. -/
theorem findSubslice_append {needle hay : List α} {place : ℕ}
    (h : findSubslice needle hay = some place) (more : List α) :
    findSubslice needle (hay ++ more) = some place := by
  induction hay generalizing place with
  | nil => cases h
  | cons item rest ih =>
    unfold findSubslice at h
    rw [List.cons_append, findSubslice]
    split at h
    · rename_i hhere
      cases h
      rw [List.isPrefixOf_iff_prefix] at hhere
      rw [if_pos]
      rw [List.isPrefixOf_iff_prefix]
      exact hhere.trans (List.prefix_append (item :: rest) more)
    · rename_i helse
      obtain ⟨before, hbefore, rfl⟩ := Option.map_eq_some_iff.mp h
      have hinside := findSubslice_length_le hbefore
      rw [ih hbefore, if_neg, Option.map_some]
      intro hhere
      apply helse
      rw [List.isPrefixOf_iff_prefix] at hhere ⊢
      apply List.prefix_of_prefix_length_le hhere (List.prefix_append (item :: rest) more)
      rw [List.length_cons]
      omega

/-- Nothing is found in a beginning that ends before the needle does. -/
theorem findSubslice_eq_none {needle hay part : List α} {place : ℕ}
    (h : findSubslice needle hay = some place) (hpart : part <+: hay)
    (hshort : part.length < place + needle.length) : findSubslice needle part = none := by
  obtain ⟨more, rfl⟩ := hpart
  cases hfound : findSubslice needle part with
  | none => rfl
  | some found =>
    have hsame := (findSubslice_append hfound more).symm.trans h
    have hinside := findSubslice_length_le hfound
    cases hsame
    omega

/-- Items that do not begin the needle are passed over. -/
theorem findSubslice_skip {first : α} {needle line : List α} (h : first ∉ line) (rest : List α) :
    findSubslice (first :: needle) (line ++ rest) =
      (findSubslice (first :: needle) rest).map (· + line.length) := by
  induction line with
  | nil => simp
  | cons item line ih =>
    obtain ⟨hne, hline⟩ := not_or.mp (mt List.mem_cons.mpr h)
    rw [List.cons_append, findSubslice, if_neg, ih hline, Option.map_map]
    · rfl
    · simp [hne]

/-! ## Lines and the empty line after them -/

/-- Lines with a separator of two items between them. -/
def joined (separator : List α) : List α → List (List α) → List α
  | line, [] => line
  | line, next :: lines => line ++ (separator ++ joined separator next lines)

omit [DecidableEq α] in
theorem exists_cons_of_joined (separator : List α) (item : α) (more : List α)
    (lines : List (List α)) : ∃ after, joined separator (item :: more) lines = item :: after := by
  cases lines <;> exact ⟨_, rfl⟩

/-- One separator is not two. -/
theorem findSubslice_separator {first second item : α} (hne : first ≠ second)
    (hitem : first ≠ item) (tail : List α) :
    findSubslice [first, second, first, second] (first :: second :: item :: tail) =
      (findSubslice [first, second, first, second] (item :: tail)).map (· + 2) := by
  rw [findSubslice, if_neg (by simp [hitem]), findSubslice, if_neg (by simp [hne]),
    Option.map_map]
  rfl

omit [DecidableEq α] in
/-- Every line is followed by a separator, the last one too. -/
theorem joined_append_separator (separator line : List α) (lines : List (List α)) :
    joined separator line lines ++ separator = (line :: lines).flatMap (· ++ separator) := by
  induction lines generalizing line with
  | nil => simp [joined]
  | cons next lines ih =>
    simp only [joined, List.append_assoc, ih, List.flatMap_cons]

/-- The separator stands twice for the first time after the last of nonempty lines. -/
theorem findSubslice_joined {first second : α} (hne : first ≠ second) {line : List α}
    {lines : List (List α)} (h : ∀ item ∈ line :: lines, item ≠ [] ∧ first ∉ item)
    (rest : List α) :
    findSubslice [first, second, first, second]
      (joined [first, second] line lines ++ first :: second :: first :: second :: rest) =
      some (joined [first, second] line lines).length := by
  induction lines generalizing line with
  | nil =>
    obtain ⟨⟨-, hfirst⟩, -⟩ := List.forall_mem_cons.mp h
    rw [joined, findSubslice_skip hfirst]
    simp [findSubslice]
  | cons next lines ih =>
    obtain ⟨⟨-, hfirst⟩, hrest⟩ := List.forall_mem_cons.mp h
    obtain ⟨⟨hnext, hnotin⟩, -⟩ := List.forall_mem_cons.mp hrest
    obtain ⟨item, more, rfl⟩ := List.exists_cons_of_ne_nil hnext
    have hitem : first ≠ item := fun heq ↦ hnotin (heq ▸ List.mem_cons_self)
    obtain ⟨after, hafter⟩ := exists_cons_of_joined [first, second] item more lines
    have hfound := ih hrest
    rw [hafter, List.cons_append] at hfound
    -- The separator alone is no place, since the next line does not begin with one.
    have hsep := findSubslice_separator hne hitem
      (after ++ first :: second :: first :: second :: rest)
    rw [hfound] at hsep
    rw [joined, hafter, List.append_assoc, findSubslice_skip hfirst]
    simp only [List.cons_append, List.nil_append, hsep]
    simp
    omega

end Cameo.Library
