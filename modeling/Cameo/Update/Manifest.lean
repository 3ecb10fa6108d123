import Cameo.Update.Layout

/-!
# Update manifests

The checks that a manifest has to pass before the host is touched.  A release says which schema of
the persistent state it writes and which ones it reads; it reads what it writes, which is a field of
the structure.
-/

namespace Cameo.Update

open Json

/-! ## Schemas of the persistent state -/

structure StateSupport where
  writes : ℕ
  reads : List ℕ
  reads_writes : writes ∈ reads
deriving DecidableEq

def positive? (value : Value) : Option ℕ := value.asU64.filter fun n ↦ 1 ≤ n

def collectReads (reads : List ℕ) : List Value → Except String (List ℕ)
  | [] => .ok reads
  | item :: rest =>
    match positive? item with
    | none => .error "state schema reads must be positive integers"
    | some n => collectReads (if n ∈ reads then reads else reads ++ [n]) rest

/-- `validate_state_support`. -/
def validateStateSupport (value : Value) (requireReads : Bool) : Except String StateSupport := do
  let some writes := (value.get? "writes").bind positive?
    | .error "state schema writes must be a positive integer"
  let rawReads := match value.get? "reads" with
    | some found => found
    | none => if requireReads then .null else .array [.nat writes]
  let some (item :: items) := rawReads.asArray
    | .error "state schema reads must be a nonempty list"
  let reads ← collectReads [] (item :: items)
  if h : writes ∈ reads then .ok ⟨writes, reads, h⟩
  else .error "a release must be able to read the schema it writes"

/-- `state_support_from_manifest`. -/
def stateSupportFromManifest (manifest : Value) : Except String StateSupport := do
  let compatibility := manifest.index "compatibility"
  ensure (compatibility.isObject = true) "manifest lacks compatibility identity"
  let state := compatibility.index "state"
  ensure (state.isObject = true) "manifest lacks a persistent-state schema contract"
  validateStateSupport state true

/-! ## Components -/

/-- `REQUIRED_COMPONENT_IDENTITIES`. -/
def requiredComponentIdentities : List String :=
  ["os", "kernel", "firmware", "mesa_vulkan", "rocm", "llama", "cameo", "knossos", "starter_model",
    "schemas"]

/-- Sixty-four hexadecimal digits, in either case. -/
def IsDigest (digest : String) : Prop :=
  digest.length = 64 ∧ ∀ c ∈ digest.toList, asciiLower c ∈ "0123456789abcdef".toList

instance (digest : String) : Decidable (IsDigest digest) :=
  @instDecidableAnd _ _ (instDecidableEqNat _ _) (List.decidableBAll _ _)

structure ComponentIdentity where
  name : String
  id : String
  digest : Option String
deriving DecidableEq

def validateComponentIdentity (value : Value) (name : String) :
    Except String ComponentIdentity := do
  let item := value.index name
  ensure (item.isObject = true) ("component identity " ++ name ++ " is invalid")
  let some identity := (text item "id").filter fun id ↦ !stripsEmpty id
    | .error ("component identity " ++ name ++ " lacks id")
  let identity := String.ofList (strip identity.toList)
  match item.index "digest" with
  | .null => .ok ⟨name, identity, none⟩
  | .string digest =>
    if IsDigest digest then
      .ok ⟨name, identity, some (String.ofList (digest.toList.map asciiLower))⟩
    else .error ("component identity " ++ name ++ " has an invalid digest")
  | _ => .error ("component identity " ++ name ++ " has an invalid digest")

/-- `validate_component_identities`. -/
def validateComponentIdentities (value : Value) : Except String (List ComponentIdentity) := do
  ensure (value.isObject = true) "manifest lacks the full-OS component identity set"
  ensure ((∀ name ∈ requiredComponentIdentities, name ∈ value.keys) ∧
      ∀ name ∈ value.keys, name ∈ requiredComponentIdentities)
    ("manifest component identities must be exactly " ++
      ", ".intercalate requiredComponentIdentities)
  requiredComponentIdentities.mapM (validateComponentIdentity value)

def nonempty? (value : Value) (field : String) : Option String :=
  (text value field).filter fun found ↦ found ≠ ""

/-- `int(item.get("mode", "0644"), 8)`; what is no string cannot be converted. -/
def mode? (item : Value) : Option ℤ :=
  match item.get? "mode" with
  | none => octal? "0644"
  | some (.string mode) => octal? mode
  | some _ => none

/-- `not mode & ~0o755`. -/
def SafeMode (mode : ℤ) : Prop := 0 ≤ mode ∧ mode.toNat &&& 0o755 = mode.toNat

instance (mode : ℤ) : Decidable (SafeMode mode) := inferInstanceAs (Decidable (_ ∧ _))

/-- The checks of one component; its normalized target. -/
def validateComponent (destinations : List String) (item : Value) : Except String String := do
  ensure (item.isObject = true) "manifest contains an invalid component"
  let some source := nonempty? item "source" | .error "manifest contains an incomplete component"
  let some target := nonempty? item "target" | .error "manifest contains an incomplete component"
  let some digest := nonempty? item "sha256" | .error "manifest contains an incomplete component"
  let sourcePath := PosixPath.ofString source
  let targetPath := PosixPath.ofString target
  ensure (sourcePath.isAbsolute = false ∧ ".." ∉ sourcePath.parts)
    "manifest contains an unsafe component source"
  ensure (targetPath.isAbsolute = true ∧ ".." ∉ targetPath.parts)
    "manifest contains an unsafe install target"
  ensure (targetPath.toString ∉ destinations) "manifest contains duplicate install targets"
  ensure (IsDigest digest) "manifest contains an invalid component digest"
  let some mode := mode? item | .error "manifest contains an invalid component mode"
  ensure (SafeMode mode) "manifest component mode grants unsafe permissions"
  .ok targetPath.toString

/-- The checks of the components, in order. -/
def validateComponents (destinations : List String) : List Value → Except String Unit
  | [] => .ok ()
  | item :: rest => do
    let target ← validateComponent destinations item
    validateComponents (target :: destinations) rest

/-- `validate_manifest`. -/
def validateManifest (manifest : Value) : Except String Unit := do
  ensure (Filled manifest "release_id") "manifest lacks release_id"
  let compatibility := manifest.index "compatibility"
  ensure (compatibility.isObject = true ∧ (text compatibility "id").isSome = true)
    "manifest lacks compatibility identity"
  let _ ← stateSupportFromManifest manifest
  let _ ← validateComponentIdentities (manifest.index "identities")
  let some (item :: items) := (manifest.index "files").asArray
    | .error "manifest contains no components"
  validateComponents [] (item :: items)

end Cameo.Update
