import Mathlib.Data.Option.Basic

/-!
# Keyed updates

A view assigns an optional entry to every key, of a type that may depend on the key.  A patch says
which keys it concerns and what it makes of their entries; the other entries stay.  After a list of
patches, an entry is what the patches that concern its key have made of it, in their order, so a
patch is in force as long as no later one concerns the same key.
-/

namespace Cameo.Library

variable {κ : Type} {α : κ → Type}

abbrev View (α : κ → Type) := (k : κ) → Option (α k)

/-- What an update makes of the entries it concerns. -/
def Patch (α : κ → Type) := (k : κ) → Option (Option (α k) → Option (α k))

namespace Patch

def Concerns (patch : Patch α) (k : κ) : Prop := (patch k).isSome

/-- A view after an update. -/
def apply (patch : Patch α) (view : View α) : View α := fun k ↦
  match patch k with
  | none => view k
  | some act => act (view k)

/-- A view after updates, one after another. -/
def applyAll (patches : List (Patch α)) (view : View α) : View α :=
  patches.foldl (fun view patch ↦ patch.apply view) view

@[simp]
theorem applyAll_nil (view : View α) : applyAll [] view = view := rfl

@[simp]
theorem applyAll_cons (patch : Patch α) (patches : List (Patch α)) (view : View α) :
    applyAll (patch :: patches) view = applyAll patches (patch.apply view) := rfl

theorem applyAll_append (early late : List (Patch α)) (view : View α) :
    applyAll (early ++ late) view = applyAll late (applyAll early view) := List.foldl_append

theorem apply_of_not_concerns {patch : Patch α} {k : κ} (h : ¬ patch.Concerns k) (view : View α) :
    patch.apply view k = view k := by
  rw [Concerns, Option.not_isSome_iff_eq_none] at h
  rw [apply, h]

/-- A reflexive and transitive relation between the entries of a key holds across updates, if it
holds across each of them that concerns the key. -/
theorem applyAll_related {k : κ} {r : Option (α k) → Option (α k) → Prop} (hrefl : ∀ a, r a a)
    (htrans : ∀ {a b c}, r a b → r b c → r a c) {patches : List (Patch α)}
    (h : ∀ patch ∈ patches, patch.Concerns k → ∀ view, r (view k) (patch.apply view k))
    (view : View α) : r (view k) (applyAll patches view k) := by
  induction patches generalizing view with
  | nil => exact hrefl _
  | cons patch patches ih =>
    have hfirst : r (view k) (patch.apply view k) := by
      by_cases hconcerns : patch.Concerns k
      · exact h patch List.mem_cons_self hconcerns view
      · rw [apply_of_not_concerns hconcerns]
        exact hrefl _
    exact htrans hfirst (ih (fun other hmem ↦ h other (List.mem_cons_of_mem _ hmem)) _)

end Patch

end Cameo.Library
