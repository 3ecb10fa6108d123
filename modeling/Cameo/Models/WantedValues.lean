import Cameo.Models.GgufFormat

/-!
# Values under wanted keys

A value of a type that is not wanted is to be passed over wherever it stands.  `read_integer_value`
passes over as many bytes as `skip_value` does for every type of fixed width; for a string or an
array it fails, and with it the inspection of the file.
-/

namespace Cameo.Models

open Library

variable {file : GgufFile} {ty : GgufType} {value : List UInt8} {pos : ℕ}

/-- A value is read under a wanted key as it is skipped under any other: up to the same place, and
giving its number if it is an unsigned integer. -/
structure ReadAsSkipped (file : GgufFile) (ty : GgufType) (value : List UInt8) (pos : ℕ) :
    Prop where
  sameBytes : ∃ result pos', readIntegerValue file ty.code pos = .ok (result, pos') ∧
    skipValue file (file.data.length + 1) ty.code pos = .ok ((), pos')
  /-- An entry with a wanted key ends behind its value. -/
  aligned : ∀ entry : GgufEntry, entry.type = ty → entry.value = value → wanted entry.key = true →
    ∀ start, Holds file.data start entry.encoding →
      readEntry file (file.data.length + 1) start =
        .ok ((entry.key, if ty.isUnsigned then some (leValue value) else none),
          start + entry.encoding.length)

/-- A value of fixed width is read to its end. -/
theorem readIntegerValue_of_width (h : Encodes ty value) {width : ℕ}
    (hwidth : ty.width = some width) (hholds : Holds file.data pos value) :
    readIntegerValue file ty.code pos =
      .ok (if ty.isUnsigned then some (leValue value) else none, pos + value.length) := by
  by_cases hunsigned : ty.isUnsigned = true
  · rw [if_pos hunsigned]
    exact readIntegerValue_of_encodes h hunsigned hholds
  · have hread : readExact file width pos = .ok (value, pos + value.length) := by
      rw [← h.length_of_width hwidth]
      exact readExact_of_holds hholds
    have hskip : skipValueRead file ty.code pos = .ok ((), pos + value.length) := by
      unfold skipValueRead
      rw [ty.fixedWidth_code, hwidth]
      exact bind_of_ok hread
    rw [if_neg hunsigned]
    cases ty <;> first
      | exact absurd rfl hunsigned
      | exact bind_of_ok hskip

/-- A string or an array is not read. -/
theorem readIntegerValue_of_unbounded (h : ty.width = none) :
    readIntegerValue file ty.code pos = .error (.nonIntegerType ty.code) := by
  cases ty <;> first
    | rfl
    | cases h

theorem width_eq_none_iff : ty.width = none ↔ ty = .string ∨ ty = .array := by
  cases ty <;> decide

/-- Reading agrees with skipping except for strings and arrays. -/
theorem readAsSkipped_iff (h : Encodes ty value) (hholds : Holds file.data pos value) :
    ReadAsSkipped file ty value pos ↔ ty ≠ .string ∧ ty ≠ .array := by
  rw [← not_or, ← width_eq_none_iff]
  constructor
  · rintro ⟨⟨result, pos', hread, -⟩, -⟩ hwidth
    rw [readIntegerValue_of_unbounded hwidth] at hread
    cases hread
  · intro hbounded
    obtain ⟨width, hwidth⟩ := Option.ne_none_iff_exists'.mp hbounded
    have hle := hholds.length_le
    constructor
    · exact ⟨_, _, readIntegerValue_of_width h hwidth hholds,
        skipValue_of_encodes h (by omega) hholds⟩
    · rintro entry rfl rfl hwanted start hentry
      obtain ⟨hfront, hvalue⟩ := holds_append_iff.mp hentry
      rw [List.length_append, length_leBytes, ← Nat.add_assoc] at hvalue
      rw [readEntry_of_front _ hfront, if_pos hwanted,
        bind_of_ok (readIntegerValue_of_width entry.encodes hwidth hvalue), entry.length_encoding]
      simp only [Nat.add_assoc]
      rfl

theorem offset_bounded : 2 ^ 62 < 2 ^ 63 := by decide

/-- A file that holds the 32-bit floating-point number 4096. -/
def floatFile : GgufFile where
  data := leBytes 4 0x45800000
  maxOffset := 2 ^ 62
  fits := by decide
  bounded := offset_bounded

theorem readAsSkipped_float : ReadAsSkipped floatFile .float32 floatFile.data 0 ↔
    GgufType.float32 ≠ .string ∧ GgufType.float32 ≠ .array :=
  readAsSkipped_iff (.scalar rfl (by decide)) (holds_zero List.prefix_rfl)

def headCounts : List (List UInt8) := [leBytes 4 3, leBytes 4 5]

theorem encodes_headCounts : ∀ item ∈ headCounts, Encodes .uint32 item := by
  intro item hitem
  simp only [headCounts, List.mem_cons, List.not_mem_nil, or_false] at hitem
  rcases hitem with rfl | rfl
  · exact .scalar rfl rfl
  · exact .scalar rfl rfl

/-- The entry of a model that counts the heads of each of its layers. -/
def layeredEntry : GgufEntry where
  key := "openelm.attention.head_count_kv"
  short := by decide +kernel
  type := .array
  value := leBytes 4 GgufType.uint32.code ++ leBytes 8 headCounts.length ++ headCounts.flatten
  encodes := .array (by decide) encodes_headCounts

theorem version_supported : 3 = 2 ∨ 3 = 3 := .inr rfl

def layeredSection : GgufSection where
  version := 3
  supported := version_supported
  tensorCount := 0
  counted := by decide
  entries := [layeredEntry]
  listed := by decide

def layeredFile : GgufFile where
  data := layeredSection.encoding
  maxOffset := 2 ^ 62
  fits := by decide +kernel
  bounded := offset_bounded

theorem holds_layered : Holds layeredFile.data 67 layeredEntry.value :=
  ⟨layeredFile.data.take 67, [], by decide +kernel, by decide +kernel⟩

/-- A model whose head counts differ from layer to layer cannot be inspected. -/
theorem not_readAsSkipped_layered :
    (inspectGguf layeredFile).toOption = none ∧
      ¬ ∀ (file : GgufFile) (ty : GgufType) (value : List UInt8) (pos : ℕ), Encodes ty value →
        Holds file.data pos value → ReadAsSkipped file ty value pos := by
  refine ⟨by decide +kernel, fun h ↦ ?_⟩
  obtain ⟨result, pos', hread, -⟩ :=
    (h layeredFile _ _ 67 layeredEntry.encodes holds_layered).sameBytes
  rw [readIntegerValue_of_unbounded rfl] at hread
  cases hread

end Cameo.Models
