import Mathlib.Data.List.Infix
import Mathlib.Data.Nat.ModEq
import Mathlib.Tactic.Ring

/-!
# Little-endian numbers at places of a byte string

Numbers of a fixed width, the least significant byte first, and what stands at a place of a byte
string.  A reader that goes from place to place is followed step by step: what stands at a place is
what stands there first and, behind it, the rest.
-/

namespace Cameo.Library

/-! ## Little-endian numbers -/

def leBytes : ℕ → ℕ → List UInt8
  | 0, _ => []
  | width + 1, n => UInt8.ofNat n :: leBytes width (n / 256)

/-- The number of little-endian bytes. -/
def leValue : List UInt8 → ℕ
  | [] => 0
  | byte :: rest => byte.toNat + 256 * leValue rest

@[simp]
theorem length_leBytes (width n : ℕ) : (leBytes width n).length = width := by
  induction width generalizing n with
  | zero => rfl
  | succ width ih => rw [leBytes, List.length_cons, ih]

theorem leValue_leBytes {width n : ℕ} (h : n < 256 ^ width) : leValue (leBytes width n) = n := by
  induction width generalizing n with
  | zero =>
    rw [pow_zero] at h
    exact (Nat.lt_one_iff.mp h).symm
  | succ width ih =>
    have hrest : n / 256 < 256 ^ width := by
      rw [Nat.div_lt_iff_lt_mul (by decide), ← pow_succ]
      exact h
    rw [leBytes, leValue, ih hrest, UInt8.toNat_ofNat']
    omega

/-! ## What stands at a place -/

variable {α : Type}

def Holds (data : List α) (pos : ℕ) (part : List α) : Prop :=
  ∃ front rest, data = front ++ part ++ rest ∧ front.length = pos

variable {data first second part : List α} {pos : ℕ}

theorem holds_zero (h : part <+: data) : Holds data 0 part := by
  obtain ⟨rest, rfl⟩ := h
  exact ⟨[], rest, rfl, rfl⟩

theorem Holds.length_le (h : Holds data pos part) : pos + part.length ≤ data.length := by
  obtain ⟨front, rest, rfl, rfl⟩ := h
  rw [List.length_append, List.length_append]
  exact Nat.le_add_right _ _

/-- What stands at a place is read from there. -/
theorem Holds.take_drop (h : Holds data pos part) : (data.drop pos).take part.length = part := by
  obtain ⟨front, rest, rfl, rfl⟩ := h
  rw [List.append_assoc, List.drop_left, List.take_left]

/-- One part stands behind another. -/
theorem holds_append_iff : Holds data pos (first ++ second) ↔
    Holds data pos first ∧ Holds data (pos + first.length) second := by
  constructor
  · rintro ⟨front, rest, rfl, rfl⟩
    refine ⟨⟨front, second ++ rest, ?_, rfl⟩, ⟨front ++ first, rest, ?_, List.length_append⟩⟩
    · simp only [List.append_assoc]
    · simp only [List.append_assoc]
  · rintro ⟨⟨front, rest, rfl, rfl⟩, ⟨front', rest', hdata, hlength⟩⟩
    rw [← List.length_append] at hlength
    rw [List.append_assoc (front' )] at hdata
    obtain ⟨rfl, rfl⟩ := List.append_inj hdata hlength.symm
    exact ⟨front, rest', by simp only [List.append_assoc], rfl⟩

end Cameo.Library
