import Cameo.Json
import Mathlib.Algebra.BigOperators.Group.List.Basic

/-!
# The size of canonical JSON

The bundle builder and the update transaction write their files with `json.dumps`, without spaces
and with a newline at the end, and every reader of such a file bounds its size.
-/

namespace Cameo.Update

open Json Library

/-- `MAX_JSON_BYTES`. -/
def maxJsonBytes : ℕ := 1024 * 1024

/-- The bytes of a character in a string of `json.dumps`, which escapes all but printable ASCII. -/
def asciiCharSize (c : Char) : ℕ :=
  if c.toNat ∈ [8, 9, 10, 12, 13, 34, 92] then 2
  else if 32 ≤ c.toNat ∧ c.toNat ≤ 126 then 1
  else if c.toNat < 65536 then 6
  else 12

/-- The bytes of a string of `json.dumps`. -/
def asciiStringSize (s : String) : ℕ := (s.toList.map asciiCharSize).sum + 2

mutual

/-- The length of what `json.dumps` writes without spaces, for a value without floats. -/
def dumpsSize : Value → ℕ
  | .null => 4
  | .bool value => if value then 4 else 5
  | .number value => Value.numberSize value
  | .string value => asciiStringSize value
  | .array items => dumpsItemsSize items + 2
  | .object fields => dumpsFieldsSize fields + 2

def dumpsItemsSize : List Value → ℕ
  | [] => 0
  | [item] => dumpsSize item
  | item :: items => dumpsSize item + 1 + dumpsItemsSize items

def dumpsFieldsSize : List (String × Value) → ℕ
  | [] => 0
  | [(name, value)] => asciiStringSize name + 1 + dumpsSize value
  | (name, value) :: fields =>
    asciiStringSize name + 1 + dumpsSize value + 1 + dumpsFieldsSize fields

end

/-- The length of `canonical_json`, which ends the text with a newline. -/
def canonicalSize (value : Value) : ℕ := dumpsSize value + 1

theorem dumpsItemsSize_eq (items : List Value) :
    dumpsItemsSize items = (items.map dumpsSize).sum + (items.length - 1) := by
  induction items with
  | nil => rfl
  | cons item rest ih =>
    cases rest with
    | nil => simp [dumpsItemsSize]
    | cons next others =>
      rw [dumpsItemsSize, ih]
      · simp only [List.map_cons, List.sum_cons, List.length_cons]
        omega
      · exact List.cons_ne_nil _ _

theorem dumpsFieldsSize_eq (fields : List (String × Value)) :
    dumpsFieldsSize fields =
      (fields.map fun field ↦ asciiStringSize field.1 + 1 + dumpsSize field.2).sum +
        (fields.length - 1) := by
  induction fields with
  | nil => rfl
  | cons field rest ih =>
    cases rest with
    | nil => simp [dumpsFieldsSize]
    | cons next others =>
      rw [dumpsFieldsSize, ih]
      · simp only [List.map_cons, List.sum_cons, List.length_cons]
        omega
      · exact List.cons_ne_nil _ _

/-- A field can be set to either of two values of the same size. -/
theorem canonicalSize_set_congr {value old new : Value} (field : String)
    (h : dumpsSize old = dumpsSize new) :
    canonicalSize (value.set field old) = canonicalSize (value.set field new) := by
  unfold Value.set
  split
  · rename_i fields
    have hsizes := Ordered.map_insertEntry_congr (k := field) (v := old) (w := new)
      (f := fun field ↦ asciiStringSize field.1 + 1 + dumpsSize field.2) (by simp [h]) fields
    have hlength := congrArg List.length hsizes
    rw [List.length_map, List.length_map] at hlength
    simp only [canonicalSize, dumpsSize, dumpsFieldsSize_eq, hsizes, hlength]
  · simp [canonicalSize, dumpsSize, dumpsFieldsSize_eq, h]
  · rfl

/-- A text without characters that are escaped. -/
theorem asciiStringSize_of_plain {s : String} (h : ∀ c ∈ s.toList, asciiCharSize c = 1) :
    asciiStringSize s = s.length + 2 := by
  unfold asciiStringSize
  rw [List.map_congr_left h, List.map_const', List.sum_replicate, String.length_toList]
  simp

theorem asciiStringSize_replicate {c : Char} (h : asciiCharSize c = 1) (n : ℕ) :
    asciiStringSize (String.ofList (List.replicate n c)) = n + 2 := by
  have hplain : ∀ found ∈ (String.ofList (List.replicate n c)).toList, asciiCharSize found = 1 := by
    intro found hmem
    rw [String.toList_ofList] at hmem
    rwa [List.eq_of_mem_replicate hmem]
  rw [asciiStringSize_of_plain hplain, String.length_ofList, List.length_replicate]

end Cameo.Update
