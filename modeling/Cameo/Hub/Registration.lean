import Cameo.Daemon.KeyRing
import Cameo.Json

/-!
# Registrations

What a node sends when it enrolls with a hub, how the hub derives the node's id from it, and the
records the hub keeps of its nodes.  A paired node is known by the digest of its device credential;
the credential itself never enters a record.
-/

namespace Cameo.Hub

open Json

/-! ## Digests -/

abbrev Digest := Vector UInt8 32

/-- `ct_digest_eq`. -/
def ctDigestEq (left right : Digest) : Bool := Daemon.differences left.toList right.toList = 0

theorem ctDigestEq_iff (left right : Digest) : ctDigestEq left right = true ↔ left = right := by
  have hlength : left.toList.length = right.toList.length := by
    rw [Vector.length_toList, Vector.length_toList]
  rw [ctDigestEq, decide_eq_true_eq, Daemon.differences_eq_zero_iff hlength, Vector.toList_inj]

/-- `credential_matches`, given `hash_secret`. -/
def credentialMatches (hash : String → Digest) (stored : Digest) (presented : String) : Bool :=
  ctDigestEq stored (hash presented)

namespace Digest

/-- The digest as serde writes an array of bytes. -/
def toValue (digest : Digest) : Value := .array (digest.toList.map fun byte ↦ .nat byte.toNat)

/-- Reading a digest: exactly 32 bytes. -/
def fromValue (value : Value) : Option Digest := do
  let items ← value.asArray
  let bytes ← items.mapM Value.asU8
  if h : bytes.toArray.size = 32 then some ⟨bytes.toArray, h⟩ else none

theorem fromValue_toValue (digest : Digest) : fromValue digest.toValue = some digest := by
  have hbytes : (digest.toList.map fun byte ↦ Value.nat byte.toNat).mapM Value.asU8 =
      some digest.toList := by
    induction digest.toList with
    | nil => rfl
    | cons byte rest ih => simp [ih]
  have harray : digest.toList.toArray = digest.toArray := by
    rw [Vector.toList, Array.toArray_toList]
  simp [fromValue, toValue, Value.asArray, hbytes, harray]

end Digest

/-! ## Registrations -/

/-- `Registration`. -/
structure Registration where
  nodeId : String
  name : String
  address : String
  key : Option String
  cameoVersion : String
  node : Value
deriving DecidableEq

namespace Registration

def fields (reg : Registration) : List (String × Value) := [
  ("node_id", .string reg.nodeId),
  ("name", .string reg.name),
  ("address", .string reg.address),
  ("key", .option .string reg.key),
  ("cameo_version", .string reg.cameoVersion),
  ("node", reg.node)]

/-- `serde_json::to_value` of a registration. -/
def toValue (reg : Registration) : Value := .ofFields reg.fields

/-- `serde_json::from_value` of a registration. -/
def fromValue (value : Value) : Option Registration := do
  let nodeId ← value.fieldOr "" Value.asStr "node_id"
  let name ← value.fieldOr "" Value.asStr "name"
  let address ← (value.get? "address").bind Value.asStr
  let key ← value.fieldOr none (Value.asOption Value.asStr) "key"
  let cameoVersion ← value.fieldOr "" Value.asStr "cameo_version"
  let node ← value.fieldOr .null some "node"
  return ⟨nodeId, name, address, key, cameoVersion, node⟩

theorem get?_toValue (reg : Registration) (field : String) :
    reg.toValue.get? field = (reg.fields.find? fun pair ↦ pair.1 = field).map Prod.snd := by
  have hnodup : (reg.fields.map Prod.fst).Nodup :=
    (by decide : ["node_id", "name", "address", "key", "cameo_version", "node"].Nodup)
  exact Value.get?_ofFields hnodup field

/-- A persisted registration reads back as it was written. -/
theorem fromValue_toValue (reg : Registration) : fromValue reg.toValue = some reg := by
  have hstring (s : String) : Value.asStr (.string s) = some s := rfl
  have hnull (s : String) : Value.string s ≠ .null := by simp
  have hstrings := Value.asOption_option hstring hnull
  simp [fromValue, Value.fieldOr, get?_toValue, fields, hstring, hstrings]

end Registration

/-- `MAX_NODE_ID_LEN`. -/
def maxNodeIdLen : ℕ := 256

/-- `pick_id`. -/
def pickId (reg : Registration) : String :=
  (([reg.nodeId, reg.name, reg.address].map trim).find? (· ≠ "")).getD "node"

/-- The longest beginning of a text that fits a number of bytes. -/
def takeBytes : ℕ → List Char → List Char
  | _, [] => []
  | room, c :: rest => if c.utf8Size ≤ room then c :: takeBytes (room - c.utf8Size) rest else []

/-- `cap_id_len`. -/
def capIdLen (s : String) : String :=
  if s.utf8ByteSize > maxNodeIdLen then String.ofList (takeBytes maxNodeIdLen s.toList) else s

@[irreducible]
def assignedId (reg : Registration) : String := capIdLen (pickId reg)

theorem assignedId_eq_capIdLen (reg : Registration) : assignedId reg = capIdLen (pickId reg) := by
  delta assignedId
  rfl

/-! ## Records -/

/-- `Enrollment`. -/
inductive Enrollment where
  | legacyToken
  | paired (credentialDigest : Digest) (label : String)
deriving DecidableEq

namespace Enrollment

/-- The enrollment is bound to a device credential. -/
def isPaired : Enrollment → Bool
  | legacyToken => false
  | paired _ _ => true

/-- `Enrollment::trust_name`. -/
def trustName : Enrollment → String
  | legacyToken => "legacy_token"
  | paired _ _ => "paired"

/-- `serde_json::to_value` of an enrollment, tagged by its kind. -/
def toValue : Enrollment → Value
  | legacyToken => .ofFields [("kind", .string "legacy_token")]
  | paired digest label => .ofFields [
      ("kind", .string "paired"),
      ("credential_digest", digest.toValue),
      ("label", .string label)]

/-- `serde_json::from_value` of an enrollment. -/
def fromValue (value : Value) : Option Enrollment := do
  match ← (value.get? "kind").bind Value.asStr with
  | "legacy_token" => return legacyToken
  | "paired" =>
    let digest ← (value.get? "credential_digest").bind Digest.fromValue
    let label ← (value.get? "label").bind Value.asStr
    return paired digest label
  | _ => none

theorem fromValue_toValue (enrollment : Enrollment) :
    fromValue enrollment.toValue = some enrollment := by
  have hstring (s : String) : Value.asStr (.string s) = some s := rfl
  cases enrollment with
  | legacyToken => rfl
  | paired digest label =>
    have hnodup : ([("kind", .string "paired"), ("credential_digest", digest.toValue),
        ("label", .string label)].map (Prod.fst : String × Value → String)).Nodup :=
      (by decide : ["kind", "credential_digest", "label"].Nodup)
    have hfields := Value.get?_ofFields hnodup
    simp [fromValue, toValue, hfields, hstring, Digest.fromValue_toValue]

end Enrollment

/-- `Enrolled`. -/
structure Enrolled where
  reg : Registration
  lastSeen : Instant
  enrollment : Enrollment
deriving DecidableEq

end Cameo.Hub
