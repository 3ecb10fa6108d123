import Cameo.Clock

/-!
# Floating point

The two binary formats the planner computes with.  Every finite value is a sign and a whole number
of units, the unit being the least positive value of the format, so that products, quotients and
comparisons are exact up to the one rounding of each operation: to nearest, ties to even.
-/

namespace Cameo

structure FloatFormat where
  /-- The bits of a significand, the leading one included. -/
  precision : ℕ
  /-- The least positive value is `2 ^ -unitBits`. -/
  unitBits : ℕ
  /-- Magnitudes from `2 ^ maxBits` on are infinite. -/
  maxBits : ℕ

inductive FloatValue (format : FloatFormat) where
  | nan
  | infinite (negative : Bool)
  | finite (negative : Bool) (units : ℕ)
deriving DecidableEq

/-- `f64`. -/
abbrev F64 := FloatValue ⟨53, 1074, 1024⟩

/-- `f32`. -/
abbrev F32 := FloatValue ⟨24, 149, 128⟩

/-- The unit of an `f64`: one is so many of the least positive value. -/
def f64Unit : ℕ := 2 ^ (⟨53, 1074, 1024⟩ : FloatFormat).unitBits

theorem f64Unit_pos : 0 < f64Unit := Nat.two_pow_pos _

namespace FloatValue

variable {format : FloatFormat}

/-- The value nearest to `num / den` units. -/
def round (negative : Bool) (num den : ℕ) : FloatValue format :=
  let shift := 2 ^ ((num / den).log2 + 1 - format.precision)
  let units := roundHalfEven num (den * shift) * shift
  if units < 2 ^ (format.maxBits + format.unitBits) then .finite negative units
  else .infinite negative

/-- The value nearest to a nonnegative fraction, as of a decimal literal. -/
def ofRatio (num den : ℕ) : FloatValue format := round false (num * 2 ^ format.unitBits) den

/-- The value nearest to an unsigned integer. -/
def ofNat (n : ℕ) : FloatValue format := ofRatio n 1

def zero : FloatValue format := .finite false 0

def mul : FloatValue format → FloatValue format → FloatValue format
  | .finite s a, .finite t b => round (s != t) (a * b) (2 ^ format.unitBits)
  | .infinite s, .infinite t => .infinite (s != t)
  | .infinite s, .finite t b => if b = 0 then .nan else .infinite (s != t)
  | .finite s a, .infinite t => if a = 0 then .nan else .infinite (s != t)
  | .nan, _ | _, .nan => .nan

def div : FloatValue format → FloatValue format → FloatValue format
  | .finite s a, .finite t b =>
    if b = 0 then if a = 0 then .nan else .infinite (s != t)
    else round (s != t) (a * 2 ^ format.unitBits) b
  | .infinite _, .infinite _ => .nan
  | .infinite s, .finite t _ => .infinite (s != t)
  | .finite s _, .infinite t => .finite (s != t) 0
  | .nan, _ | _, .nan => .nan

instance : Mul (FloatValue format) := ⟨mul⟩

instance : Div (FloatValue format) := ⟨div⟩

def signed (negative : Bool) (units : ℕ) : ℤ := if negative then -units else units

/-- Subtraction.  Both values are whole numbers of units, so their difference is one. -/
def sub : FloatValue format → FloatValue format → FloatValue format
  | .finite s a, .finite t b =>
    let difference := signed s a - signed t b
    round (difference < 0) difference.natAbs 1
  | .infinite s, .infinite t => if s = t then .nan else .infinite s
  | .infinite s, .finite _ _ => .infinite s
  | .finite _ _, .infinite t => .infinite (!t)
  | .nan, _ | _, .nan => .nan

instance : Sub (FloatValue format) := ⟨sub⟩

/-- `abs`. -/
def abs : FloatValue format → FloatValue format
  | .finite _ units => .finite false units
  | .infinite _ => .infinite false
  | .nan => .nan

/-- `f64::EPSILON`. -/
def epsilon : F64 := .ofRatio 1 (2 ^ 52)

/-- `<`; no value is less than NaN, nor NaN less than a value. -/
def lt : FloatValue format → FloatValue format → Bool
  | .finite s a, .finite t b => signed s a < signed t b
  | .infinite s, .infinite t => s && !t
  | .infinite s, .finite _ _ => s
  | .finite _ _, .infinite t => !t
  | .nan, _ | _, .nan => false

/-- `<=`. -/
def le : FloatValue format → FloatValue format → Bool
  | .finite s a, .finite t b => signed s a ≤ signed t b
  | .infinite s, .infinite t => s || !t
  | .infinite s, .finite _ _ => s
  | .finite _ _, .infinite t => !t
  | .nan, _ | _, .nan => false

/-- `is_finite`. -/
def isFinite : FloatValue format → Bool
  | .finite _ _ => true
  | _ => false

/-- `is_nan`. -/
def isNan : FloatValue format → Bool
  | .nan => true
  | _ => false

/-- A cast to an unsigned integer type with the given largest value: towards zero, saturating, and
zero for NaN.  On a nonnegative value `floor` before the cast changes nothing. -/
def toUnsigned (largest : ℕ) : FloatValue format → ℕ
  | .finite false units => min (units / 2 ^ format.unitBits) largest
  | .finite true _ => 0
  | .infinite negative => if negative then 0 else largest
  | .nan => 0

/-- `ceil` and then such a cast. -/
def ceilToUnsigned (largest : ℕ) : FloatValue format → ℕ
  | .finite false units => min ((units + 2 ^ format.unitBits - 1) / 2 ^ format.unitBits) largest
  | .finite true _ => 0
  | .infinite negative => if negative then 0 else largest
  | .nan => 0

/-- The value of an `f64` bit pattern that is finite. -/
def ofBits (bits : ℕ) : F64 :=
  let negative := bits / 2 ^ 63 % 2 = 1
  let exponent := bits / 2 ^ 52 % 2 ^ 11
  let fraction := bits % 2 ^ 52
  .finite negative
    (if exponent = 0 then fraction else (2 ^ 52 + fraction) * 2 ^ (exponent - 1))

/-! ## Decimal texts -/

/-- A decimal text with the given number of places, of a number of units in the last place. -/
def decimalText (places scaled : ℕ) : String :=
  let whole := toString (scaled / 10 ^ places)
  if places = 0 then whole
  else
    let digits := toString (scaled % 10 ^ places)
    whole ++ "." ++ String.ofList (List.replicate (places - digits.length) '0') ++ digits

/-- `{:.n}`: a fixed number of places, the exact value rounded to nearest, ties to even. -/
def fixed (places : ℕ) : FloatValue format → String
  | .finite negative units =>
    (if negative then "-" else "") ++
      decimalText places (roundHalfEven (units * 10 ^ places) (2 ^ format.unitBits))
  | .infinite negative => if negative then "-inf" else "inf"
  | .nan => "NaN"

/-- The decimal exponent of the leading digit of `num / den`, by trying from `fuel` down. -/
def leadingExponent (num den : ℕ) : ℕ → ℤ → ℤ
  | 0, exponent => exponent
  | fuel + 1, exponent =>
    let reached := if 0 ≤ exponent then den * 10 ^ exponent.toNat ≤ num
      else den ≤ num * 10 ^ (-exponent).toNat
    if reached then exponent else leadingExponent num den fuel (exponent - 1)

/-- The decimal with the given number of digits after the leading one that is nearest to a value,
and its number of places; fewer than zero places are written as trailing zeros. -/
def nearestDecimal (units digits : ℕ) : ℕ × ℕ :=
  let exponent := leadingExponent units (2 ^ 1074) 640 308
  let places := (digits : ℤ) - exponent
  if 0 ≤ places then (roundHalfEven (units * 10 ^ places.toNat) (2 ^ 1074), places.toNat)
  else
    let step := 10 ^ (-places).toNat
    (roundHalfEven units (2 ^ 1074 * step) * step, 0)

/-- A decimal without trailing zeros after the point; rounding up to a power of ten leaves one. -/
def trimDecimal : ℕ → ℕ → ℕ × ℕ
  | scaled, 0 => (scaled, 0)
  | scaled, places + 1 =>
    if scaled % 10 = 0 then trimDecimal (scaled / 10) places else (scaled, places + 1)

/-- `{}` of an `f64`: the shortest decimal that reads back as the value. -/
def display : F64 → String
  | .finite negative units =>
    let shortest := ((List.range 17).map (nearestDecimal units)).find? fun decimal ↦
      (ofRatio decimal.1 (10 ^ decimal.2) : F64) = .finite false units
    let decimal := (shortest.map fun decimal ↦ trimDecimal decimal.1 decimal.2).getD (0, 0)
    (if negative then "-" else "") ++ decimalText decimal.2 decimal.1
  | .infinite negative => if negative then "-inf" else "inf"
  | .nan => "NaN"

end FloatValue

/-! ## How far rounding goes -/

theorem roundHalfEven_bounds (num den : ℕ) :
    num / den ≤ roundHalfEven num den ∧ roundHalfEven num den ≤ num / den + 1 := by
  unfold roundHalfEven
  dsimp only
  split <;> omega

namespace FloatValue

variable {format : FloatFormat}

/-- A quotient of fewer than `bits` bits is rounded by at most one unit in the last place of the
largest such quotient. -/
theorem round_of_lt (negative : Bool) {num den bits : ℕ} (h : num / den < 2 ^ bits)
    (hprecision : format.precision < bits) (hbits : bits < format.maxBits + format.unitBits) :
    ∃ units, (round negative num den : FloatValue format) = .finite negative units ∧
      num / den ≤ units + 2 ^ (bits - format.precision) ∧
      units ≤ num / den + 2 ^ (bits - format.precision) := by
  have hexponent : (num / den).log2 + 1 - format.precision ≤ bits - format.precision := by
    by_cases hzero : num / den = 0
    · rw [hzero, Nat.log2_zero]
      omega
    · have hlog := (Nat.log2_lt hzero).mpr h
      omega
  have hshift : 2 ^ ((num / den).log2 + 1 - format.precision) ≤ 2 ^ (bits - format.precision) :=
    Nat.pow_le_pow_right (by decide) hexponent
  have hround := roundHalfEven_bounds num
    (den * 2 ^ ((num / den).log2 + 1 - format.precision))
  have hpos : 0 < 2 ^ ((num / den).log2 + 1 - format.precision) := Nat.two_pow_pos _
  unfold round
  dsimp only
  generalize 2 ^ ((num / den).log2 + 1 - format.precision) = shift at hshift hround hpos ⊢
  generalize roundHalfEven num (den * shift) = rounded at hround ⊢
  rw [← Nat.div_div_eq_div_mul] at hround
  have hlow : num / den ≤ rounded * shift + shift := by
    calc num / den ≤ (num / den / shift + 1) * shift :=
          (Nat.lt_mul_of_div_lt (Nat.lt_succ_self _) hpos).le
      _ ≤ (rounded + 1) * shift := Nat.mul_le_mul_right shift (by omega)
      _ = rounded * shift + shift := by ring
  have hhigh : rounded * shift ≤ num / den + shift := by
    calc rounded * shift ≤ (num / den / shift + 1) * shift := Nat.mul_le_mul_right shift hround.2
      _ = num / den / shift * shift + shift := by ring
      _ ≤ num / den + shift := Nat.add_le_add_right (Nat.div_mul_le_self _ _) shift
  have hfinite : rounded * shift < 2 ^ (format.maxBits + format.unitBits) := by
    calc rounded * shift ≤ num / den + 2 ^ (bits - format.precision) := by omega
      _ < 2 ^ bits + 2 ^ bits :=
          Nat.add_lt_add_of_lt_of_le h (Nat.pow_le_pow_right (by decide) (Nat.sub_le _ _))
      _ = 2 ^ (bits + 1) := by ring
      _ ≤ 2 ^ (format.maxBits + format.unitBits) := Nat.pow_le_pow_right (by decide) hbits
  rw [if_pos hfinite]
  exact ⟨_, rfl, by omega, by omega⟩

/-- A value between two positive finite values is one. -/
theorem eq_finite_of_le {value : FloatValue format} {low high : ℕ} (hpos : 0 < low)
    (hlow : le (.finite false low) value = true) (hhigh : le value (.finite false high) = true) :
    ∃ units, value = .finite false units ∧ low ≤ units ∧ units ≤ high := by
  cases value with
  | nan => cases hlow
  | infinite negative =>
    cases negative with
    | false => cases hhigh
    | true => cases hlow
  | finite negative units =>
    rw [le, decide_eq_true_eq] at hlow hhigh
    cases negative with
    | true =>
      have hsign : (low : ℤ) ≤ -(units : ℤ) := hlow
      omega
    | false => exact ⟨units, rfl, Int.ofNat_le.mp hlow, Int.ofNat_le.mp hhigh⟩

theorem toUnsigned_le (largest : ℕ) (value : FloatValue format) :
    value.toUnsigned largest ≤ largest := by
  unfold toUnsigned
  split
  · exact min_le_right _ _
  · exact Nat.zero_le _
  · split
    · exact Nat.zero_le _
    · exact le_rfl
  · exact Nat.zero_le _

theorem ofNat_eq_round (n : ℕ) :
    (ofNat n : FloatValue format) = round false (n * 2 ^ format.unitBits) 1 := rfl

theorem finite_mul_finite (s t : Bool) (a b : ℕ) :
    (.finite s a * .finite t b : FloatValue format) =
      round (s != t) (a * b) (2 ^ format.unitBits) := rfl

/-- With a significand of 53 bits, a quotient of whole parts of up to 64 bits is rounded by at most
2048. -/
theorem round_of_u64 (negative : Bool) {num den : ℕ} (hprecision : format.precision = 53)
    (hmax : 64 < format.maxBits)
    (h : num / den < 18446744073709551616 * 2 ^ format.unitBits) :
    ∃ units, (round negative num den : FloatValue format) = .finite negative units ∧
      num / den ≤ units + 2048 * 2 ^ format.unitBits ∧
      units ≤ num / den + 2048 * 2 ^ format.unitBits := by
  have hbits : 18446744073709551616 * 2 ^ format.unitBits = 2 ^ (64 + format.unitBits) :=
    (pow_add 2 64 _).symm
  have hlast : 2048 * 2 ^ format.unitBits =
      2 ^ (64 + format.unitBits - format.precision) := by
    rw [show 64 + format.unitBits - format.precision = 11 + format.unitBits by omega]
    exact (pow_add 2 11 _).symm
  rw [hbits] at h
  rw [hlast]
  exact round_of_lt negative h (by omega) (by omega)

/-! ## Differences -/

theorem abs_round (negative : Bool) (num den : ℕ) :
    (round negative num den : FloatValue format).abs =
      (round false num den : FloatValue format).abs := by
  unfold round
  dsimp only
  split
  · rfl
  · rfl

/-- The magnitude of a difference does not depend on its direction. -/
theorem abs_sub_comm (a b : FloatValue format) : (a - b).abs = (b - a).abs := by
  change (a.sub b).abs = (b.sub a).abs
  cases a with
  | nan =>
    cases b with
    | nan => rfl
    | infinite t => rfl
    | finite t units => rfl
  | infinite s =>
    cases b with
    | nan => rfl
    | infinite t =>
      simp only [FloatValue.sub, eq_comm]
      split
      · rfl
      · rfl
    | finite t units => rfl
  | finite s units =>
    cases b with
    | nan => rfl
    | infinite t => rfl
    | finite t units' =>
      simp only [FloatValue.sub]
      rw [abs_round, ← Int.natAbs_neg, neg_sub, ← abs_round]

theorem finite_sub_finite (s t : Bool) (a b : ℕ) :
    (.finite s a - .finite t b : FloatValue format) =
      round (signed s a - signed t b < 0) (signed s a - signed t b).natAbs 1 := rfl

theorem lt_nan (value : FloatValue format) : value.lt .nan = false := by
  cases value with
  | nan => rfl
  | infinite s => rfl
  | finite s units => rfl

/-- Of two values that are further apart than a tolerance one is greater, if no finite value is
that far from itself. -/
theorem lt_of_apart {tolerance a b : FloatValue format}
    (hself : ∀ s units, tolerance.lt (.finite s units - .finite s units : FloatValue format).abs =
      false)
    (h : tolerance.lt (a - b).abs = true) : b.lt a = !a.lt b := by
  have hnan : (a - b).abs ≠ .nan := by
    intro hnan
    rw [hnan, lt_nan] at h
    cases h
  cases a with
  | nan => exact absurd rfl hnan
  | infinite s =>
    cases b with
    | nan => exact absurd rfl hnan
    | finite t units => simp [FloatValue.lt]
    | infinite t =>
      have hne : s ≠ t := by
        rintro rfl
        exact hnan (congrArg abs (if_pos rfl))
      cases s with
      | false => simp [FloatValue.lt, hne.symm]
      | true => simp [FloatValue.lt, hne.symm]
  | finite s units =>
    cases b with
    | nan => exact absurd rfl hnan
    | infinite t => simp [FloatValue.lt]
    | finite t units' =>
      have hne : signed s units ≠ signed t units' := by
        intro heq
        rw [finite_sub_finite, heq, ← finite_sub_finite, hself] at h
        cases h
      rcases lt_or_gt_of_ne hne with hlt | hgt
      · simp [FloatValue.lt, hlt, hlt.not_gt]
      · simp [FloatValue.lt, hgt, hgt.not_gt]

/-! ## Values that are not small -/

/-- Infinite, or so many units at least. -/
def AtLeast (bound : ℕ) (value : FloatValue format) : Prop :=
  value = .infinite false ∨ ∃ units, value = .finite false units ∧ bound ≤ units

/-- Rounding loses no more than half of a value. -/
theorem atLeast_round (hprecision : 0 < format.precision) {num den bound : ℕ}
    (h : 2 * bound ≤ num / den) : AtLeast bound (round false num den : FloatValue format) := by
  by_cases hzero : num / den = 0
  · obtain rfl : bound = 0 := by omega
    unfold round
    dsimp only
    split
    · exact Or.inr ⟨_, rfl, Nat.zero_le _⟩
    · exact Or.inl rfl
  · have hshift : 2 ^ ((num / den).log2 + 1 - format.precision) ≤ num / den :=
      (Nat.pow_le_pow_right (by decide) (by omega)).trans (Nat.log2_self_le hzero)
    have hround := (roundHalfEven_bounds num
      (den * 2 ^ ((num / den).log2 + 1 - format.precision))).1
    rw [← Nat.div_div_eq_div_mul] at hround
    unfold round
    dsimp only
    have hpos : 0 < 2 ^ ((num / den).log2 + 1 - format.precision) := Nat.two_pow_pos _
    generalize 2 ^ ((num / den).log2 + 1 - format.precision) = shift at hshift hround hpos ⊢
    generalize roundHalfEven num (den * shift) = rounded at hround ⊢
    have hbound : bound ≤ rounded * shift := by
      have hfloor : num / den / shift * shift ≤ rounded * shift := Nat.mul_le_mul_right shift hround
      have hrest := Nat.div_add_mod' (num / den) shift
      have hmod := Nat.mod_lt (num / den) hpos
      have hone : shift ≤ num / den / shift * shift :=
        Nat.le_mul_of_pos_left shift (Nat.div_pos hshift hpos)
      omega
    split
    · exact Or.inr ⟨_, rfl, hbound⟩
    · exact Or.inl rfl

theorem AtLeast.div (hprecision : 0 < format.precision) {bound low divisor : ℕ}
    {value : FloatValue format} (h : AtLeast bound value) (hdivisor : 0 < divisor)
    (hlow : 2 * low ≤ bound * 2 ^ format.unitBits / divisor) :
    AtLeast low (value / .finite false divisor) := by
  rcases h with rfl | ⟨units, rfl, hbound⟩
  · exact Or.inl rfl
  · have hquotient : (.finite false units / .finite false divisor : FloatValue format) =
        round false (units * 2 ^ format.unitBits) divisor := if_neg hdivisor.ne'
    rw [hquotient]
    refine atLeast_round hprecision (hlow.trans (Nat.div_le_div_right ?_))
    exact Nat.mul_le_mul_right _ hbound

theorem AtLeast.mul (hprecision : 0 < format.precision) {bound bound' low : ℕ}
    {value value' : FloatValue format} (h : AtLeast bound value) (h' : AtLeast bound' value')
    (hpos : 0 < bound) (hpos' : 0 < bound')
    (hlow : 2 * low ≤ bound * bound' / 2 ^ format.unitBits) : AtLeast low (value * value') := by
  rcases h with rfl | ⟨units, rfl, hbound⟩
  · rcases h' with rfl | ⟨units', rfl, hbound'⟩
    · exact Or.inl rfl
    · exact Or.inl (if_neg (hpos'.trans_le hbound').ne')
  · rcases h' with rfl | ⟨units', rfl, hbound'⟩
    · exact Or.inl (if_neg (hpos.trans_le hbound).ne')
    · rw [finite_mul_finite]
      refine atLeast_round hprecision (hlow.trans (Nat.div_le_div_right ?_))
      exact Nat.mul_le_mul hbound hbound'

/-- A positive integer has at least half a unit bit's worth of units. -/
theorem atLeast_ofNat (hprecision : 0 < format.precision) {n : ℕ} (hn : 0 < n) :
    AtLeast (2 ^ format.unitBits / 2) (ofNat n : FloatValue format) := by
  refine atLeast_round hprecision ?_
  rw [Nat.div_one]
  exact (Nat.mul_div_le _ 2).trans (Nat.le_mul_of_pos_left _ hn)

/-- The time for a positive number of items, in thousandths, is positive unless the rate is beyond
the square of the unit. -/
theorem atLeast_thousandths (hprecision : 0 < format.precision) (hunit : 0 < format.unitBits)
    {n divisor : ℕ} (hn : 0 < n) (hdivisor : 0 < divisor)
    (hrate : 16 * divisor ≤ 2 ^ format.unitBits * 2 ^ format.unitBits) :
    AtLeast 1 (ofNat n / .finite false divisor * ofNat 1000 : FloatValue format) := by
  have hhalf : 2 * (2 ^ format.unitBits / 2) = 2 ^ format.unitBits :=
    Nat.mul_div_cancel' (dvd_pow_self 2 hunit.ne')
  have hpos : 0 < 2 ^ format.unitBits := Nat.two_pow_pos _
  have hquotient : AtLeast 4 (ofNat n / .finite false divisor : FloatValue format) := by
    refine (atLeast_ofNat hprecision hn).div hprecision hdivisor ?_
    rw [Nat.le_div_iff_mul_le hdivisor]
    have hsquare : 2 * (2 ^ format.unitBits / 2 * 2 ^ format.unitBits) =
        2 ^ format.unitBits * 2 ^ format.unitBits := by
      rw [← Nat.mul_assoc, hhalf]
    omega
  refine hquotient.mul hprecision (atLeast_ofNat hprecision (by decide)) (by decide) (by omega) ?_
  rw [Nat.le_div_iff_mul_le hpos]
  omega

theorem AtLeast.one_le_ceilToUnsigned {largest : ℕ} {value : FloatValue format}
    (h : AtLeast 1 value) (hlargest : 1 ≤ largest) : 1 ≤ value.ceilToUnsigned largest := by
  rcases h with rfl | ⟨units, rfl, hunits⟩
  · exact hlargest
  · refine le_min ?_ hlargest
    rw [Nat.le_div_iff_mul_le (Nat.two_pow_pos _)]
    omega

/-! ## Values that are not large -/

/-- Finite, and so many units at most. -/
def AtMost (bound : ℕ) (value : FloatValue format) : Prop :=
  ∃ units, value = .finite false units ∧ units ≤ bound

/-- Rounding no more than doubles a value. -/
theorem atMost_round (hprecision : 0 < format.precision) {num den bound : ℕ}
    (h : 2 * (num / den) + 1 ≤ bound) (hfinite : bound < 2 ^ (format.maxBits + format.unitBits)) :
    AtMost bound (round false num den : FloatValue format) := by
  have hshift : 2 ^ ((num / den).log2 + 1 - format.precision) ≤ num / den + 1 := by
    by_cases hzero : num / den = 0
    · rw [hzero, Nat.log2_zero, show 0 + 1 - format.precision = 0 by omega]
      exact le_rfl
    · exact ((Nat.pow_le_pow_right (by decide) (by omega)).trans (Nat.log2_self_le hzero)).trans
        (Nat.le_succ _)
  have hround := (roundHalfEven_bounds num
    (den * 2 ^ ((num / den).log2 + 1 - format.precision))).2
  rw [← Nat.div_div_eq_div_mul] at hround
  unfold round
  dsimp only
  generalize 2 ^ ((num / den).log2 + 1 - format.precision) = shift at hshift hround ⊢
  generalize roundHalfEven num (den * shift) = rounded at hround ⊢
  have hbound : rounded * shift ≤ bound :=
    calc rounded * shift ≤ (num / den / shift + 1) * shift := Nat.mul_le_mul_right shift hround
      _ = num / den / shift * shift + shift := by ring
      _ ≤ num / den + (num / den + 1) := Nat.add_le_add (Nat.div_mul_le_self _ _) hshift
      _ ≤ bound := by omega
  rw [if_pos (hbound.trans_lt hfinite)]
  exact ⟨_, rfl, hbound⟩

theorem AtMost.div (hprecision : 0 < format.precision) {bound high divisor : ℕ}
    {value : FloatValue format} (h : AtMost bound value) (hdivisor : 0 < divisor)
    (hhigh : 2 * (bound * 2 ^ format.unitBits / divisor) + 1 ≤ high)
    (hfinite : high < 2 ^ (format.maxBits + format.unitBits)) :
    AtMost high (value / .finite false divisor) := by
  obtain ⟨units, rfl, hbound⟩ := h
  have hquotient : (.finite false units / .finite false divisor : FloatValue format) =
      round false (units * 2 ^ format.unitBits) divisor := if_neg hdivisor.ne'
  rw [hquotient]
  refine atMost_round hprecision (le_trans ?_ hhigh) hfinite
  have hle : units * 2 ^ format.unitBits / divisor ≤ bound * 2 ^ format.unitBits / divisor :=
    Nat.div_le_div_right (Nat.mul_le_mul_right _ hbound)
  omega

theorem AtMost.mul (hprecision : 0 < format.precision) {bound bound' high : ℕ}
    {value value' : FloatValue format} (h : AtMost bound value) (h' : AtMost bound' value')
    (hhigh : 2 * (bound * bound' / 2 ^ format.unitBits) + 1 ≤ high)
    (hfinite : high < 2 ^ (format.maxBits + format.unitBits)) : AtMost high (value * value') := by
  obtain ⟨units, rfl, hbound⟩ := h
  obtain ⟨units', rfl, hbound'⟩ := h'
  rw [finite_mul_finite]
  refine atMost_round hprecision (le_trans ?_ hhigh) hfinite
  have hle : units * units' / 2 ^ format.unitBits ≤ bound * bound' / 2 ^ format.unitBits :=
    Nat.div_le_div_right (Nat.mul_le_mul hbound hbound')
  omega

/-- The time for up to a million items, in thousandths, is at most one unit bit's worth of units at
a rate that is close to the square of the unit. -/
theorem atMost_thousandths (hprecision : 0 < format.precision) (hunit : 88 ≤ format.unitBits)
    (hmax : 22 < format.maxBits) {n divisor : ℕ} (hn : n < 2 ^ 20) (hdivisor : 0 < divisor)
    (hrate : 2 ^ 22 * (2 ^ format.unitBits * 2 ^ format.unitBits) ≤ divisor * 2 ^ 73) :
    AtMost (2 ^ format.unitBits) (ofNat n / .finite false divisor * ofNat 1000 :
      FloatValue format) := by
  have hlarge : 2 ^ 88 ≤ 2 ^ format.unitBits := Nat.pow_le_pow_right (by decide) hunit
  have hfinite : 2 ^ 23 * 2 ^ format.unitBits ≤ 2 ^ (format.maxBits + format.unitBits) := by
    rw [pow_add]
    exact Nat.mul_le_mul_right _ (Nat.pow_le_pow_right (by decide) hmax)
  have hpos : 0 < 2 ^ format.unitBits := Nat.two_pow_pos _
  have hofNat {m : ℕ} (hm : m < 2 ^ 20) :
      AtMost (2 * (m * 2 ^ format.unitBits) + 1) (ofNat m : FloatValue format) := by
    refine atMost_round hprecision (by rw [Nat.div_one]) ?_
    have hle : m * 2 ^ format.unitBits ≤ 2 ^ 20 * 2 ^ format.unitBits :=
      Nat.mul_le_mul_right _ hm.le
    omega
  have hquotient : AtMost (2 ^ 75) (ofNat n / .finite false divisor : FloatValue format) := by
    refine (hofNat hn).div hprecision hdivisor ?_ (by omega)
    have hle : (2 * (n * 2 ^ format.unitBits) + 1) * 2 ^ format.unitBits ≤ divisor * 2 ^ 73 := by
      refine le_trans ?_ hrate
      rw [← Nat.mul_assoc (2 ^ 22)]
      refine Nat.mul_le_mul_right _ ?_
      have hsize : n * 2 ^ format.unitBits ≤ 2 ^ 20 * 2 ^ format.unitBits :=
        Nat.mul_le_mul_right _ hn.le
      omega
    have hdiv := Nat.div_le_of_le_mul hle
    omega
  refine hquotient.mul hprecision (hofNat (by decide)) ?_ (by omega)
  have hle : 2 ^ 75 * (2 * (1000 * 2 ^ format.unitBits) + 1) ≤ 2 ^ format.unitBits * 2 ^ 86 := by
    omega
  have hdiv := Nat.div_le_of_le_mul hle
  omega

theorem AtMost.ceilToUnsigned_le_one {largest : ℕ} {value : FloatValue format}
    (h : AtMost (2 ^ format.unitBits) value) : value.ceilToUnsigned largest ≤ 1 := by
  obtain ⟨units, rfl, hunits⟩ := h
  refine (min_le_left _ _).trans ?_
  rw [← Nat.lt_succ_iff, Nat.div_lt_iff_lt_mul (Nat.two_pow_pos _)]
  have hpos : 0 < 2 ^ format.unitBits := Nat.two_pow_pos _
  omega

end FloatValue

end Cameo
