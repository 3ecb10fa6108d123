import Mathlib.Data.List.Infix
import Mathlib.Logic.Function.Basic

/-!
# File trees

Directories and files over arbitrary names and contents.  A tree says what stands at each path, and
carries that whatever stands below a path stands in a directory.  The operations are those of a file
system: something is created in a directory where nothing stands, a file grows, a directory is
removed with all that is below it, or becomes another name of another directory.
-/

namespace Cameo.Library

variable {ν β : Type}

inductive Entry (β : Type) where
  | directory
  | file (content : List β)
deriving DecidableEq

@[ext]
structure FileTree (ν β : Type) where
  entry : List ν → Option (Entry β)
  rooted : ∀ path name, (entry (path ++ [name])).isSome = true → entry path = some .directory

namespace FileTree

variable (tree : FileTree ν β) {path base lead : List ν} {name : ν}

def Occupied (path : List ν) : Prop := (tree.entry path).isSome = true

instance (path : List ν) : Decidable (tree.Occupied path) := inferInstanceAs (Decidable (_ = true))

def IsDirectory (path : List ν) : Prop := tree.entry path = some .directory

instance [DecidableEq β] (path : List ν) : Decidable (tree.IsDirectory path) :=
  inferInstanceAs (Decidable (_ = _))

variable {tree}

theorem entry_eq_none_iff : tree.entry path = none ↔ ¬ tree.Occupied path := by
  simp [Occupied]

theorem IsDirectory.occupied (h : tree.IsDirectory path) : tree.Occupied path := by
  rw [Occupied, h]
  rfl

/-- Above an entry there are directories. -/
theorem isDirectory_of_append {rest : List ν} (h : tree.Occupied (path ++ rest)) (hne : rest ≠ []) :
    tree.IsDirectory path := by
  induction rest using List.reverseRecOn with
  | nil => exact absurd rfl hne
  | append_singleton rest name ih =>
    rw [← List.append_assoc] at h
    have hparent : tree.IsDirectory (path ++ rest) := tree.rooted _ _ h
    cases rest with
    | nil => rwa [List.append_nil] at hparent
    | cons head tail => exact ih hparent.occupied (List.cons_ne_nil _ _)

/-- Nothing stands below a path at which nothing stands. -/
theorem entry_append_of_none (h : tree.entry path = none) (rest : List ν) :
    tree.entry (path ++ rest) = none := by
  by_cases hne : rest = []
  · rwa [hne, List.append_nil]
  · by_contra hoccupied
    have hdir := isDirectory_of_append (not_not.mp (mt entry_eq_none_iff.mpr hoccupied)) hne
    rw [IsDirectory, h] at hdir
    cases hdir

/-- The tree of nothing but a root directory. -/
def bare : FileTree ν β where
  entry := fun path ↦ if path.isEmpty = true then some .directory else none
  rooted := fun path name h ↦ by simp at h

/-! ## Operations -/

section Operations

variable [DecidableEq ν]

/-- Something is created in a directory, where nothing stands. -/
def create (tree : FileTree ν β) (path : List ν) (new : Entry β)
    (h : path ≠ [] ∧ tree.IsDirectory path.dropLast ∧ ¬ tree.Occupied path) : FileTree ν β where
  entry := Function.update tree.entry path (some new)
  rooted := by
    intro above below hoccupied
    by_cases hself : above ++ [below] = path
    · have hne : above ≠ path := by
        rintro rfl
        simp at hself
      have hparent := h.2.1
      rw [← hself, List.dropLast_concat] at hparent
      rw [Function.update_of_ne hne]
      exact hparent
    · rw [Function.update_of_ne hself] at hoccupied
      have hne : above ≠ path := by
        rintro rfl
        exact h.2.2 (isDirectory_of_append hoccupied (List.cons_ne_nil _ _)).occupied
      rw [Function.update_of_ne hne]
      exact tree.rooted above below hoccupied

/-- One more item at the end of a file. -/
def grow (tree : FileTree ν β) (path : List ν) (item : β) : FileTree ν β where
  entry := fun at' ↦
    if at' = path then
      match tree.entry path with
      | some (.file content) => some (.file (content ++ [item]))
      | found => found
    else tree.entry at'
  rooted := by
    have hdir : ∀ at', tree.IsDirectory at' → (if at' = path then
        match tree.entry path with
        | some (.file content) => some (.file (content ++ [item]))
        | found => found
        else tree.entry at') = some .directory := by
      intro at' h
      split
      · rename_i hself
        rw [← hself, h]
      · exact h
    intro above below hoccupied
    refine hdir above (tree.rooted above below ?_)
    split at hoccupied
    · rename_i hself
      rw [hself]
      cases hfound : tree.entry path with
      | none => simp [hfound] at hoccupied
      | some found => rfl
    · exact hoccupied

def remove (tree : FileTree ν β) (base : List ν) : FileTree ν β where
  entry := fun path ↦ if base <+: path then none else tree.entry path
  rooted := by
    intro above below hoccupied
    split at hoccupied
    · cases hoccupied
    · rename_i hbelow
      have habove : ¬ base <+: above := fun hext ↦
        hbelow (hext.trans (List.prefix_append _ _))
      rw [if_neg habove]
      exact tree.rooted above below hoccupied

/-- What is at and below `base` becomes what is at and below another path. -/
def move (tree : FileTree ν β) (base target : List ν)
    (h : tree.IsDirectory target.dropLast ∧ ¬ base <+: target.dropLast) : FileTree ν β where
  entry := fun path ↦
    if target <+: path then tree.entry (base ++ path.drop target.length)
    else if base <+: path then none else tree.entry path
  rooted := by
    intro above below hoccupied
    by_cases hself : target <+: above
    · obtain ⟨rest, rfl⟩ := hself
      have hbelow : target <+: target ++ rest ++ [below] :=
        (List.prefix_append _ _).trans (List.prefix_append _ _)
      rw [if_pos hbelow, List.append_assoc, List.drop_left, ← List.append_assoc] at hoccupied
      rw [if_pos (List.prefix_append _ _), List.drop_left]
      exact tree.rooted _ _ hoccupied
    · rw [if_neg hself]
      split at hoccupied
      · rename_i htarget
        obtain rfl : target = above ++ [below] :=
          (List.prefix_concat_iff.mp htarget).resolve_right hself
        rw [List.dropLast_concat] at h
        rw [if_neg h.2]
        exact h.1
      · split at hoccupied
        · cases hoccupied
        · rename_i hbase
          have habove : ¬ base <+: above := fun hext ↦
            hbase (hext.trans (List.prefix_append _ _))
          rw [if_neg habove]
          exact tree.rooted above below hoccupied

end Operations

/-! ## What changes -/

/-- The trees agree at every path that the change does not concern. -/
def AgreeOff (changed : List ν → Prop) (before after : FileTree ν β) : Prop :=
  ∀ path, ¬ changed path → after.entry path = before.entry path

variable {before between after : FileTree ν β} {changed changed' : List ν → Prop}

theorem AgreeOff.refl (changed : List ν → Prop) (tree : FileTree ν β) :
    AgreeOff changed tree tree :=
  fun _ _ ↦ rfl

theorem AgreeOff.trans (hfirst : AgreeOff changed before between)
    (hrest : AgreeOff changed between after) : AgreeOff changed before after :=
  fun path hpath ↦ (hrest path hpath).trans (hfirst path hpath)

theorem AgreeOff.mono (h : AgreeOff changed before after)
    (hle : ∀ path, changed path → changed' path) : AgreeOff changed' before after :=
  fun path hpath ↦ h path fun hchanged ↦ hpath (hle path hchanged)

/-- Below a base, the tree is as a function of the paths from there says. -/
def Shows (tree : FileTree ν β) (base : List ν) (image : List ν → Option (Entry β)) : Prop :=
  ∀ rest, tree.entry (base ++ rest) = image rest

section Changes

variable [DecidableEq ν] {image : List ν → Option (Entry β)} {rest target : List ν} {item : β}
  {content : List β} {new : Entry β}

theorem agreeOff_create {h} (hpath : changed path) :
    AgreeOff changed tree (tree.create path new h) := by
  intro other hother
  have hne : other ≠ path := fun heq ↦ hother (heq ▸ hpath)
  exact Function.update_of_ne hne _ _

theorem agreeOff_grow (hpath : changed path) : AgreeOff changed tree (tree.grow path item) := by
  intro other hother
  have hne : other ≠ path := fun heq ↦ hother (heq ▸ hpath)
  exact if_neg hne

theorem agreeOff_remove (hbase : ∀ path, base <+: path → changed path) :
    AgreeOff changed tree (tree.remove base) :=
  fun path hother ↦ if_neg fun hbelow ↦ hother (hbase path hbelow)

theorem agreeOff_move {h} (hbase : ∀ path, base <+: path → changed path)
    (htarget : ∀ path, target <+: path → changed path) :
    AgreeOff changed tree (tree.move base target h) := by
  intro path hother
  have hfrom : ¬ target <+: path := fun hbelow ↦ hother (htarget path hbelow)
  have hto : ¬ base <+: path := fun hbelow ↦ hother (hbase path hbelow)
  exact (if_neg hfrom).trans (if_neg hto)

theorem entry_create_self {h} : (tree.create path new h).entry path = some new :=
  Function.update_self _ _ _

theorem Shows.create (hshows : tree.Shows base image) {h} :
    (tree.create (base ++ rest) new h).Shows base (Function.update image rest (some new)) := by
  intro other
  by_cases hself : other = rest
  · rw [hself, entry_create_self, Function.update_self]
  · rw [Function.update_of_ne hself, ← hshows other]
    exact Function.update_of_ne (fun heq ↦ hself (List.append_cancel_left heq)) _ _

theorem Shows.grow (hshows : tree.Shows base (Function.update image rest (some (.file content)))) :
    (tree.grow (base ++ rest) item).Shows base
      (Function.update image rest (some (.file (content ++ [item])))) := by
  have hself : tree.entry (base ++ rest) = some (.file content) := by
    rw [hshows rest, Function.update_self]
  intro other
  by_cases hother : other = rest
  · rw [hother, Function.update_self]
    exact (if_pos rfl).trans (by rw [hself])
  · have hshown := hshows other
    rw [Function.update_of_ne hother] at hshown ⊢
    exact (if_neg fun heq ↦ hother (List.append_cancel_left heq)).trans hshown

theorem entry_remove_of_prefix (h : base <+: path) : (tree.remove base).entry path = none :=
  if_pos h

theorem entry_remove_of_not_prefix (h : ¬ base <+: path) :
    (tree.remove base).entry path = tree.entry path := if_neg h

/-- A directory that is moved shows at its new place what it has shown. -/
theorem Shows.move (hshows : tree.Shows base image) {h} :
    (tree.move base target h).Shows target image := by
  intro rest
  have hself : (tree.move base target h).entry (target ++ rest) =
      tree.entry (base ++ (target ++ rest).drop target.length) :=
    if_pos (List.prefix_append target rest)
  rw [hself, List.drop_left, hshows rest]

end Changes

end FileTree

end Cameo.Library
