import Cameo.Clock
import Cameo.Library.Ordered
import Mathlib.Data.String.Basic

/-!
# JSON values

The `serde_json::Value` tree that the daemon persists and serves.  An object lists its fields in
increasing key order, as serde_json's default map does; a number keeps the three forms serde
distinguishes, the float one by its bit pattern, which the functions that compute with it decode.
-/

namespace Cameo.Json

open Library.Ordered (insertEntry collect find?_insertEntry find?_collect insertEntry_insertEntry)

/-- `serde_json::Number`. -/
inductive Number where
  | posInt (value : ℕ)
  | negInt (value : ℤ)
  | float (bits : ℕ)
deriving DecidableEq

/-- `serde_json::Value`. -/
inductive Value where
  | null
  | bool (value : Bool)
  | number (value : Number)
  | string (value : String)
  | array (items : List Value)
  | object (fields : List (String × Value))

namespace Value

mutual

/-- Structural equality test; the tree is nested through lists, so it is written out. -/
def decEq : (left right : Value) → Decidable (left = right)
  | .null, .null => isTrue rfl
  | .bool a, .bool b => decidable_of_iff (a = b) (by simp)
  | .number a, .number b => decidable_of_iff (a = b) (by simp)
  | .string a, .string b => decidable_of_iff (a = b) (by simp)
  | .array a, .array b =>
    match decEqItems a b with
    | isTrue h => isTrue (h ▸ rfl)
    | isFalse h => isFalse fun heq ↦ h (Value.array.inj heq)
  | .object a, .object b =>
    match decEqFields a b with
    | isTrue h => isTrue (h ▸ rfl)
    | isFalse h => isFalse fun heq ↦ h (Value.object.inj heq)
  | .null, .bool _ | .null, .number _ | .null, .string _ | .null, .array _ | .null, .object _
  | .bool _, .null | .bool _, .number _ | .bool _, .string _ | .bool _, .array _
  | .bool _, .object _ | .number _, .null | .number _, .bool _ | .number _, .string _
  | .number _, .array _ | .number _, .object _ | .string _, .null | .string _, .bool _
  | .string _, .number _ | .string _, .array _ | .string _, .object _ | .array _, .null
  | .array _, .bool _ | .array _, .number _ | .array _, .string _ | .array _, .object _
  | .object _, .null | .object _, .bool _ | .object _, .number _ | .object _, .string _
  | .object _, .array _ => isFalse nofun

def decEqItems : (left right : List Value) → Decidable (left = right)
  | [], [] => isTrue rfl
  | [], _ :: _ => isFalse nofun
  | _ :: _, [] => isFalse nofun
  | a :: as, b :: bs =>
    match decEq a b, decEqItems as bs with
    | isTrue h, isTrue hs => isTrue (h ▸ hs ▸ rfl)
    | isFalse h, _ => isFalse fun heq ↦ h (List.cons.inj heq).1
    | _, isFalse hs => isFalse fun heq ↦ hs (List.cons.inj heq).2

def decEqFields : (left right : List (String × Value)) → Decidable (left = right)
  | [], [] => isTrue rfl
  | [], _ :: _ => isFalse nofun
  | _ :: _, [] => isFalse nofun
  | (k, a) :: as, (l, b) :: bs =>
    match decEq a b, decEqFields as bs with
    | isTrue h, isTrue hs =>
      if hk : k = l then isTrue (h ▸ hs ▸ hk ▸ rfl)
      else isFalse fun heq ↦ hk (Prod.mk.inj (List.cons.inj heq).1).1
    | isFalse h, _ => isFalse fun heq ↦ h (Prod.mk.inj (List.cons.inj heq).1).2
    | _, isFalse hs => isFalse fun heq ↦ hs (List.cons.inj heq).2

end

instance : DecidableEq Value := decEq

/-- The bytes that a character takes in a JSON string.  Quotes, backslashes and the usual control
characters have escapes of two. -/
def charSize (c : Char) : ℕ :=
  if c.toNat ∈ [8, 9, 10, 12, 13, 34, 92] then 2
  else if c.toNat < 32 then 6
  else c.utf8Size

def stringSize (s : String) : ℕ := (s.toList.map charSize).sum + 2

/-- The bytes of a number.  A float has a text of at most twenty-four, which is what is taken. -/
def numberSize : Number → ℕ
  | .posInt n => (Nat.toDigits 10 n).length
  | .negInt n => (Nat.toDigits 10 n.natAbs).length + 1
  | .float _ => 24

mutual

/-- The length of what `serde_json::to_vec` writes, for a value without floats. -/
def textSize : Value → ℕ
  | .null => 4
  | .bool value => if value then 4 else 5
  | .number value => numberSize value
  | .string value => stringSize value
  | .array items => itemsSize items + 2
  | .object fields => fieldsSize fields + 2

def itemsSize : List Value → ℕ
  | [] => 0
  | [item] => textSize item
  | item :: items => textSize item + 1 + itemsSize items

def fieldsSize : List (String × Value) → ℕ
  | [] => 0
  | [(name, value)] => stringSize name + 1 + textSize value
  | (name, value) :: fields => stringSize name + 1 + textSize value + 1 + fieldsSize fields

end

/-- `Value::get` with a string index. -/
def get? (field : String) : Value → Option Value
  | .object fields => (fields.find? fun pair ↦ pair.1 = field).map Prod.snd
  | _ => none

def isObject : Value → Bool
  | .object _ => true
  | _ => false

def keys : Value → List String
  | .object fields => fields.map Prod.fst
  | _ => []

/-- `value[field]`: a missing field reads as null. -/
def index (field : String) (value : Value) : Value := (value.get? field).getD .null

/-- `value[field] = new`.  A null becomes an object first; on any other non-object the source
panics, and no modelled caller passes one. -/
def set (value : Value) (field : String) (new : Value) : Value :=
  match value with
  | .object fields => .object (insertEntry field new fields)
  | .null => .object [(field, new)]
  | other => other

/-- `Value::as_u64`. -/
def asU64 : Value → Option ℕ
  | .number (.posInt n) => some n
  | _ => none

/-- `Value::as_str`. -/
def asStr : Value → Option String
  | .string s => some s
  | _ => none

/-- `Value::as_array`. -/
def asArray : Value → Option (List Value)
  | .array items => some items
  | _ => none

def asStrings (value : Value) : Option (List String) :=
  value.asArray.bind fun items ↦ items.mapM asStr

/-- Reading a `bool`. -/
def asBool : Value → Option Bool
  | .bool b => some b
  | _ => none

/-- Reading a `u8`. -/
def asU8 (value : Value) : Option UInt8 :=
  value.asU64.bind fun n ↦ if h : n < 2 ^ 8 then some (.ofNatLT n h) else none

/-- Reading a `u16`. -/
def asU16 (value : Value) : Option UInt16 :=
  value.asU64.bind fun n ↦ if h : n < 2 ^ 16 then some (.ofNatLT n h) else none

/-- Reading a `u32`. -/
def asU32 (value : Value) : Option UInt32 :=
  value.asU64.bind fun n ↦ if h : n < 2 ^ 32 then some (.ofNatLT n h) else none

/-- A finite `f64`, by its bit pattern; JSON has no other. -/
abbrev FiniteF64 := { bits : ℕ // isFiniteF64 bits = true }

/-- Reading an `f64`; an integer is converted. -/
def asF64 (value : Value) : Option FiniteF64 :=
  let checked (bits : ℕ) := if h : isFiniteF64 bits = true then some ⟨bits, h⟩ else none
  match value with
  | .number (.posInt n) => checked (f64Bits n)
  | .number (.negInt i) => checked (f64Bits i)
  | .number (.float bits) => checked bits
  | _ => none

/-- Reading an `Option`: null is absent. -/
def asOption {α : Type} (decode : Value → Option α) : Value → Option (Option α)
  | .null => some none
  | value => (decode value).map some

def fieldOr {α : Type} (default : α) (decode : Value → Option α) (field : String)
    (value : Value) : Option α :=
  match value.get? field with
  | none => some default
  | some found => decode found

/-! A struct is read from an object, by the names of its fields, or from an array, by place. -/

/-- A value that a struct of so many fields can be read from. -/
def asStruct (arity : ℕ) : Value → Option Value
  | .object fields => some (.object fields)
  | .array items => if items.length ≤ arity then some (.array items) else none
  | _ => none

def field? (name : String) (place : ℕ) : Value → Option Value
  | .array items => items[place]?
  | value => value.get? name

def required {α : Type} (decode : Value → Option α) (name : String) (place : ℕ)
    (value : Value) : Option α :=
  (value.field? name place).bind decode

/-- Reading an `Option` field: an object need not have it. -/
def optional {α : Type} (decode : Value → Option α) (name : String) (place : ℕ) :
    Value → Option (Option α)
  | .object fields => fieldOr none (asOption decode) name (.object fields)
  | value => required (asOption decode) name place value

def defaulted {α : Type} (default : α) (decode : Value → Option α) (name : String) (place : ℕ)
    (value : Value) : Option α :=
  match value.field? name place with
  | none => some default
  | some found => decode found

/-- The name of a unit variant: a text, or an object with the name as its only key. -/
def asVariant : Value → Option String
  | .string name => some name
  | .object [(name, .null)] => some name
  | _ => none

/-- Reading an enumeration by the names of its variants. -/
def asEnum {α : Type} (variants : List (String × α)) (value : Value) : Option α :=
  value.asVariant.bind fun name ↦ (variants.find? fun pair ↦ pair.1 = name).map Prod.snd

def asList {α : Type} (decode : Value → Option α) (value : Value) : Option (List α) :=
  value.asArray.bind fun items ↦ items.mapM decode

/-- An object from its fields, in any order. -/
def ofFields (fields : List (String × Value)) : Value :=
  .object (collect fields)

/-- A natural number as `json!` writes it. -/
def nat (n : ℕ) : Value := .number (.posInt n)

/-- A signed integer as `json!` writes it. -/
def int (i : ℤ) : Value :=
  if 0 ≤ i then .number (.posInt i.toNat) else .number (.negInt i)

/-- A finite `f64` as serde writes it. -/
def f64 (x : FiniteF64) : Value := .number (.float x.1)

/-- An optional value: absent is null. -/
def option {α : Type} (encode : α → Value) : Option α → Value
  | none => .null
  | some a => encode a

/-- Whether the value is an object; every persisted intent is one. -/
def IsObject : Value → Prop
  | .object _ => True
  | _ => False

theorem get?_set_self (field : String) (new : Value) {value : Value} (h : value.IsObject) :
    (value.set field new).get? field = some new := by
  cases value with
  | object fields => simp [set, get?, find?_insertEntry]
  | _ => exact h.elim

theorem get?_set_of_ne {field other : String} (hne : field ≠ other) (new value : Value) :
    (value.set field new).get? other = value.get? other := by
  cases value with
  | object fields => simp [set, get?, find?_insertEntry, hne]
  | null => simp [set, get?, hne]
  | _ => rfl

theorem set_set (field : String) (old new value : Value) :
    (value.set field old).set field new = value.set field new := by
  cases value with
  | object fields => simp [set, insertEntry_insertEntry]
  | null => simp [set, insertEntry]
  | _ => rfl

@[simp]
theorem asU8_nat (n : UInt8) : asU8 (.nat n.toNat) = some n := by
  have hlt := n.toNat_lt
  simp [asU8, asU64, nat, hlt]

@[simp]
theorem asU16_nat (n : UInt16) : asU16 (.nat n.toNat) = some n := by
  have hlt := n.toNat_lt
  simp [asU16, asU64, nat, hlt]

@[simp]
theorem asU32_nat (n : UInt32) : asU32 (.nat n.toNat) = some n := by
  have hlt := n.toNat_lt
  simp [asU32, asU64, nat, hlt]

@[simp]
theorem asF64_f64 (x : FiniteF64) : asF64 (.f64 x) = some x := by
  simp [asF64, f64, x.2]

/-- An optional value reads back, if its values do and are never null. -/
theorem asOption_option {α : Type} {decode : Value → Option α} {encode : α → Value}
    (h : ∀ a, decode (encode a) = some a) (hnull : ∀ a, encode a ≠ .null) (a : Option α) :
    asOption decode (option encode a) = some a := by
  cases a with
  | none => rfl
  | some a =>
    rw [option, asOption.eq_def]
    split
    · rename_i heq
      exact absurd heq (hnull a)
    · rw [h, Option.map_some]

/-- Reading a field of an object literal with distinct field names. -/
theorem get?_ofFields {fields : List (String × Value)} (h : (fields.map Prod.fst).Nodup)
    (field : String) :
    (ofFields fields).get? field = (fields.find? fun pair ↦ pair.1 = field).map Prod.snd := by
  simp only [ofFields, get?, find?_collect h]

end Value

end Cameo.Json
