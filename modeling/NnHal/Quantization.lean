import Mathlib.Algebra.Order.Floor.Ring
import Mathlib.Algebra.Order.Field.Basic
import Mathlib.Data.Rat.Floor
import Mathlib.Tactic.Linarith
import Mathlib.Tactic.NormNum
import Mathlib.Tactic.Positivity

/-!
# Affine quantization

Numbers of an ordered field are stored as integers of a range: divided by a
scale, rounded to the nearest integer, moved by a zero point and clamped.  On
the integers of the range this undoes the way back, `(q - zeroPoint) * scale`.

A machine does the same in 32 bits: the rounded quotient is saturated and the
zero point is added modulo `2 ^ 32`, before the clamp.  The two agree exactly
where that addition does not overflow.
-/

namespace Quantization

/-! ## Ranges of integers -/

/-- The integers from `low` to `high`; at least one. -/
structure IntRange where
  low : Int
  high : Int
  low_le_high : low ≤ high

namespace IntRange

def Contains (r : IntRange) (v : Int) : Prop := r.low ≤ v ∧ v ≤ r.high

instance (r : IntRange) (v : Int) : Decidable (r.Contains v) :=
  inferInstanceAs (Decidable (_ ∧ _))

/-- Every integer of `r` is in `r'`. -/
def Within (r r' : IntRange) : Prop := ∀ v, r.Contains v → r'.Contains v

/-- The nearest integer of the range. -/
def clamp (r : IntRange) (v : Int) : Int := min (max v r.low) r.high

/-- How many integers there are. -/
def size (r : IntRange) : Int := r.high - r.low + 1

/-- The integer of the range that differs by a multiple of its size. -/
def wrap (r : IntRange) (v : Int) : Int := r.low + (v - r.low) % r.size

variable {r : IntRange} {v w : Int}

theorem contains_clamp (r : IntRange) (v : Int) : r.Contains (r.clamp v) := by
  have := r.low_le_high
  unfold Contains clamp
  omega

theorem clamp_of_contains (h : r.Contains v) : r.clamp v = v := by
  unfold Contains at h
  unfold clamp
  omega

theorem clamp_mono (r : IntRange) (h : v ≤ w) : r.clamp v ≤ r.clamp w := by
  unfold clamp
  omega

/-- A clamp to a wider range before is not seen. -/
theorem clamp_clamp {r' : IntRange} (h : r.Within r') (v : Int) :
    r.clamp (r'.clamp v) = r.clamp v := by
  have hle := r.low_le_high
  have hlow := h r.low ⟨le_refl _, hle⟩
  have hhigh := h r.high ⟨hle, le_refl _⟩
  unfold Contains at hlow hhigh
  unfold clamp
  omega

theorem wrap_of_contains (h : r.Contains v) : r.wrap v = v := by
  unfold Contains at h
  unfold wrap size
  rw [Int.emod_eq_of_lt (by omega) (by omega)]
  omega

/-- An integer that leaves the range at one end comes in at the other. -/
theorem wrap_of_lt (hlow : v < r.low) (hhigh : r.low ≤ v + r.size) : r.wrap v = v + r.size := by
  have hsize : r.size = r.high - r.low + 1 := rfl
  unfold wrap
  rw [← Int.add_emod_right, Int.emod_eq_of_lt (by omega) (by omega)]
  omega

theorem wrap_of_gt (hhigh : r.high < v) (hlow : v - r.size ≤ r.high) :
    r.wrap v = v - r.size := by
  have hsize : r.size = r.high - r.low + 1 := rfl
  unfold wrap
  rw [← Int.sub_emod_right, Int.emod_eq_of_lt (by omega) (by omega)]
  omega

end IntRange

/-- The integers of 32 bits. -/
def int32Range : IntRange := ⟨-2 ^ 31, 2 ^ 31 - 1, by decide⟩

/-! ## Rounding -/

section Rounding

variable {K : Type} [Field K] [LinearOrder K] [FloorRing K]

/-- The nearest integer, and of two that are equally near the even one. -/
def roundHalfEven (x : K) : Int :=
  if x - ⌊x⌋ < 1 / 2 then ⌊x⌋ else if 1 / 2 < x - ⌊x⌋ then ⌊x⌋ + 1 else ⌊x⌋ + ⌊x⌋ % 2

/-- The integer part, toward zero. -/
def truncate (x : K) : Int := if 0 ≤ x then ⌊x⌋ else ⌈x⌉

theorem roundHalfEven_bounds (x : K) : ⌊x⌋ ≤ roundHalfEven x ∧ roundHalfEven x ≤ ⌊x⌋ + 1 := by
  unfold roundHalfEven
  split
  · omega
  · split <;> omega

variable [IsStrictOrderedRing K]

@[simp]
theorem roundHalfEven_intCast (n : Int) : roundHalfEven (n : K) = n := by
  have hhalf : (0 : K) < 1 / 2 := by positivity
  unfold roundHalfEven
  rw [Int.floor_intCast, sub_self, if_pos hhalf]

@[simp]
theorem truncate_intCast (n : Int) : truncate (n : K) = n := by
  unfold truncate
  rw [Int.floor_intCast, Int.ceil_intCast, ite_self]

theorem roundHalfEven_mono {x y : K} (h : x ≤ y) : roundHalfEven x ≤ roundHalfEven y := by
  have hfloor : ⌊x⌋ ≤ ⌊y⌋ := Int.floor_le_floor h
  obtain ⟨-, hx⟩ := roundHalfEven_bounds x
  obtain ⟨hy, -⟩ := roundHalfEven_bounds y
  rcases hfloor.lt_or_eq with hlt | heq
  · omega
  · -- the two have the same integers next to them
    have hparts : x - ⌊x⌋ ≤ y - ⌊y⌋ := by
      rw [heq]
      exact sub_le_sub_right h _
    unfold roundHalfEven
    rw [heq] at hparts ⊢
    split
    · split
      · exact le_refl _
      · split <;> omega
    · next hlow =>
      have hlowy : ¬ y - ⌊y⌋ < 1 / 2 := fun hlt => hlow (hparts.trans_lt hlt)
      rw [if_neg hlowy]
      split
      · next hhigh =>
        rw [if_pos (hhigh.trans_le hparts)]
      · split <;> omega

/-- It is at most a half away. -/
theorem abs_roundHalfEven_sub_le (x : K) : |(roundHalfEven x : K) - x| ≤ 1 / 2 := by
  have hlow := Int.floor_le x
  have hhigh := Int.lt_floor_add_one x
  rw [abs_le]
  unfold roundHalfEven
  split
  · constructor <;> linarith
  · next hlower =>
    split
    · push_cast
      constructor <;> linarith
    · next hupper =>
      -- the part behind the point is a half, either neighbour will do
      have hhalf : x - ⌊x⌋ = 1 / 2 := le_antisymm (not_lt.mp hupper) (not_lt.mp hlower)
      rcases Int.emod_two_eq_zero_or_one ⌊x⌋ with h | h
      · rw [h, add_zero]
        constructor <;> linarith
      · rw [h]
        push_cast
        constructor <;> linarith

/-- No integer is nearer. -/
theorem abs_roundHalfEven_sub_le_abs_sub (x : K) (n : Int) :
    |(roundHalfEven x : K) - x| ≤ |(n : K) - x| := by
  have hhalf := abs_roundHalfEven_sub_le x
  by_cases heq : n = roundHalfEven x
  · rw [heq]
  · -- another integer is at least one away from the nearest
    have hone : (1 : K) ≤ |(n : K) - roundHalfEven x| := by
      have hint : (1 : Int) ≤ |n - roundHalfEven x| := Int.one_le_abs (sub_ne_zero.mpr heq)
      have hcast : ((1 : Int) : K) ≤ ((|n - roundHalfEven x| : Int) : K) := Int.cast_le.mpr hint
      rwa [Int.cast_one, Int.cast_abs, Int.cast_sub] at hcast
    have htriangle := abs_sub_abs_le_abs_sub ((n : K) - roundHalfEven x) (x - roundHalfEven x)
    rw [abs_sub_comm x] at htriangle
    have hdiff : (n : K) - roundHalfEven x - (x - roundHalfEven x) = n - x := by ring
    rw [hdiff] at htriangle
    linarith

end Rounding

/-! ## Quantizing -/

/-- How numbers are stored as integers of a range. -/
structure Affine (K : Type) [Field K] [LinearOrder K] where
  scale : K
  zeroPoint : Int
  range : IntRange
  scale_pos : 0 < scale
  contains_zeroPoint : range.Contains zeroPoint

namespace Affine

variable {K : Type} [Field K] [LinearOrder K]

/-- The number an integer stands for. -/
def dequantize (a : Affine K) (q : Int) : K := (q - a.zeroPoint) * a.scale

variable [FloorRing K]

/-- The integer a number is stored as. -/
def quantize (a : Affine K) (x : K) : Int :=
  a.range.clamp (roundHalfEven (x / a.scale) + a.zeroPoint)

/-- The sum a machine clamps, before it is taken to 32 bits. -/
def machineSum (a : Affine K) (x : K) : Int :=
  int32Range.clamp (roundHalfEven (x / a.scale)) + a.zeroPoint

/-- The integer a machine stores a number as. -/
def machineQuantize (a : Affine K) (x : K) : Int :=
  a.range.clamp (int32Range.wrap (a.machineSum x))

variable {a : Affine K} {x y : K} {q : Int}

theorem contains_machineQuantize (a : Affine K) (x : K) :
    a.range.Contains (a.machineQuantize x) := a.range.contains_clamp _

/-- The range has at least two integers and is far from the ends of 32 bits. -/
def Narrow (a : Affine K) : Prop :=
  a.range.low < a.range.high ∧ -2 ^ 29 ≤ a.range.low ∧ a.range.high ≤ 2 ^ 29

/-- **The machine quantizes as it should exactly where its sum does not
overflow.** -/
theorem machineQuantize_eq_iff (hnarrow : a.Narrow) :
    a.machineQuantize x = a.quantize x ↔ int32Range.Contains (a.machineSum x) := by
  rcases hnarrow with ⟨hproper, hlow, hhigh⟩
  have hzero := a.contains_zeroPoint
  have hsize : int32Range.size = 2 ^ 32 := rfl
  generalize hrounded : roundHalfEven (x / a.scale) = rounded
  have hsum : a.machineSum x = min (max rounded (-2 ^ 31)) (2 ^ 31 - 1) + a.zeroPoint := by
    rw [← hrounded]
    rfl
  have hquantize : a.quantize x =
      min (max (rounded + a.zeroPoint) a.range.low) a.range.high := by
    rw [← hrounded]
    rfl
  have hmachine : a.machineQuantize x =
      min (max (int32Range.wrap (a.machineSum x)) a.range.low) a.range.high := rfl
  unfold IntRange.Contains at hzero
  constructor
  · intro heq
    by_contra hoverflow
    -- the sum that leaves one end of 32 bits comes in at the other
    by_cases hbelow : a.machineSum x < -2 ^ 31
    · have hwrap : int32Range.wrap (a.machineSum x) = a.machineSum x + 2 ^ 32 :=
        IntRange.wrap_of_lt hbelow (by rw [hsize, hsum]; simp only [int32Range]; omega)
      omega
    · have habove : 2 ^ 31 - 1 < a.machineSum x := by
        simp only [IntRange.Contains, int32Range] at hoverflow
        omega
      have hwrap : int32Range.wrap (a.machineSum x) = a.machineSum x - 2 ^ 32 :=
        IntRange.wrap_of_gt habove (by rw [hsize, hsum]; simp only [int32Range]; omega)
      omega
  · intro hcontains
    rw [hmachine, IntRange.wrap_of_contains hcontains]
    simp only [IntRange.Contains, int32Range] at hcontains
    omega

/-- The zero point does not take the rounded quotient out of 32 bits. -/
def Fits (a : Affine K) (x : K) : Prop :=
  (0 < a.zeroPoint → roundHalfEven (x / a.scale) + a.zeroPoint ≤ int32Range.high) ∧
    (a.zeroPoint < 0 → int32Range.low ≤ roundHalfEven (x / a.scale) + a.zeroPoint)

/-- A quotient that is itself out of 32 bits is saturated, so only the side of the
zero point matters. -/
theorem contains_machineSum_iff (hnarrow : a.Narrow) :
    int32Range.Contains (a.machineSum x) ↔ a.Fits x := by
  rcases hnarrow with ⟨-, hlow, hhigh⟩
  have hzero := a.contains_zeroPoint
  unfold Fits machineSum
  generalize roundHalfEven (x / a.scale) = rounded
  simp only [IntRange.Contains, IntRange.clamp, int32Range] at hzero ⊢
  omega

variable [IsStrictOrderedRing K]

theorem quantize_mono (a : Affine K) (h : x ≤ y) : a.quantize x ≤ a.quantize y := by
  have hquotient : x / a.scale ≤ y / a.scale := by
    rw [div_le_div_iff_of_pos_right a.scale_pos]
    exact h
  have hround := roundHalfEven_mono hquotient
  exact a.range.clamp_mono (by omega)

omit [FloorRing K] [IsStrictOrderedRing K] in
theorem dequantize_div (a : Affine K) (q : Int) :
    a.dequantize q / a.scale = ((q - a.zeroPoint : Int) : K) := by
  unfold dequantize
  rw [mul_div_cancel_right₀ _ a.scale_pos.ne', Int.cast_sub]

/-- Quantizing undoes dequantizing. -/
theorem quantize_dequantize (h : a.range.Contains q) : a.quantize (a.dequantize q) = q := by
  unfold quantize
  rw [a.dequantize_div, roundHalfEven_intCast, Int.sub_add_cancel,
    IntRange.clamp_of_contains h]

/-- A number that one of the integers stands for. -/
def Represents (a : Affine K) (x : K) : Prop := ∃ q, a.range.Contains q ∧ x = a.dequantize q

omit [FloorRing K] [IsStrictOrderedRing K] in
theorem represents_zero (a : Affine K) : a.Represents 0 := by
  refine ⟨a.zeroPoint, a.contains_zeroPoint, ?_⟩
  unfold dequantize
  rw [sub_self, zero_mul]

/-- Such a number is stored as it is. -/
theorem dequantize_quantize (h : a.Represents x) : a.dequantize (a.quantize x) = x := by
  obtain ⟨q, hq, rfl⟩ := h
  rw [quantize_dequantize hq]

omit [FloorRing K] in
/-- The distance to the number of an integer, in units of the scale. -/
theorem abs_dequantize_sub (a : Affine K) (n : Int) (x : K) :
    |a.dequantize n - x| = |((n - a.zeroPoint : Int) : K) - x / a.scale| * a.scale := by
  have hscale := a.scale_pos
  have hfactor : a.dequantize n - x =
      (((n - a.zeroPoint : Int) : K) - x / a.scale) * a.scale := by
    rw [sub_mul _ (x / a.scale), div_mul_cancel₀ _ hscale.ne', Int.cast_sub]
    rfl
  rw [hfactor, abs_mul, abs_of_pos hscale]

/-- **Nearest.**  Quantizing rounds to a nearest number of those the range has. -/
theorem quantize_nearest (a : Affine K) (x : K) (h : a.range.Contains q) :
    |a.dequantize (a.quantize x) - x| ≤ |a.dequantize q - x| := by
  rw [a.abs_dequantize_sub, a.abs_dequantize_sub]
  refine mul_le_mul_of_nonneg_right ?_ a.scale_pos.le
  have hhalf := abs_le.mp (abs_roundHalfEven_sub_le (x / a.scale))
  obtain ⟨hlow, hhigh⟩ := h
  have hproper := a.range.low_le_high
  by_cases hbelow : roundHalfEven (x / a.scale) + a.zeroPoint < a.range.low
  · -- the lowest number lies between the quotient and the others
    have hclamp : a.quantize x = a.range.low := by
      unfold quantize IntRange.clamp
      omega
    have hbound : (roundHalfEven (x / a.scale) : K) + 1 ≤ (a.range.low - a.zeroPoint : Int) := by
      rw [← Int.cast_one, ← Int.cast_add, Int.cast_le]
      omega
    have hle : ((a.range.low - a.zeroPoint : Int) : K) ≤ (q - a.zeroPoint : Int) := by
      rw [Int.cast_le]
      omega
    rw [hclamp, abs_of_nonneg (by linarith), abs_of_nonneg (by linarith)]
    linarith
  · by_cases habove : a.range.high < roundHalfEven (x / a.scale) + a.zeroPoint
    · have hclamp : a.quantize x = a.range.high := by
        unfold quantize IntRange.clamp
        omega
      have hbound : ((a.range.high - a.zeroPoint : Int) : K) + 1 ≤
          roundHalfEven (x / a.scale) := by
        rw [← Int.cast_one, ← Int.cast_add, Int.cast_le]
        omega
      have hle : ((q - a.zeroPoint : Int) : K) ≤ (a.range.high - a.zeroPoint : Int) := by
        rw [Int.cast_le]
        omega
      rw [hclamp, abs_of_nonpos (by linarith), abs_of_nonpos (by linarith)]
      linarith
    · have hclamp : a.quantize x - a.zeroPoint = roundHalfEven (x / a.scale) := by
        unfold quantize IntRange.clamp
        omega
      rw [hclamp]
      exact abs_roundHalfEven_sub_le_abs_sub _ _

/-- There nothing leaves 32 bits. -/
theorem fits_dequantize (hnarrow : a.Narrow) (h : a.range.Contains q) :
    a.Fits (a.dequantize q) := by
  rcases hnarrow with ⟨-, hlow, hhigh⟩
  unfold Fits
  rw [a.dequantize_div, roundHalfEven_intCast]
  simp only [IntRange.Contains, int32Range] at h ⊢
  omega

end Affine

/-! ## Floating-point words -/

/-- A binary floating-point format by the widths of its fields. -/
structure FloatFormat where
  exponentBits : Nat
  fractionBits : Nat

namespace FloatFormat

def binary32 : FloatFormat := ⟨8, 23⟩
def binary16 : FloatFormat := ⟨5, 10⟩

/-- The number a finite word stands for; zero stands in for that of an infinity or
a NaN. -/
def value (f : FloatFormat) (word : Nat) : Rat :=
  let fraction := word % 2 ^ f.fractionBits
  let exponent := word / 2 ^ f.fractionBits % 2 ^ f.exponentBits
  let negative := word / 2 ^ (f.fractionBits + f.exponentBits) % 2 = 1
  -- the exponent of the last bit of a subnormal number
  let least : Int := 2 - 2 ^ (f.exponentBits - 1) - f.fractionBits
  let magnitude : Rat :=
    if exponent = 0 then fraction * 2 ^ least
    else if exponent = 2 ^ f.exponentBits - 1 then 0
    else (2 ^ f.fractionBits + fraction) * 2 ^ (least + exponent - 1)
  if negative then -magnitude else magnitude

/-- One and a half. -/
example : binary32.value 0x3fc00000 = 3 / 2 := by
  norm_num [value, binary32]

/-- The word is no infinity and no NaN. -/
def Finite (f : FloatFormat) (word : Nat) : Prop :=
  word / 2 ^ f.fractionBits % 2 ^ f.exponentBits ≠ 2 ^ f.exponentBits - 1

/-- Only the two zeros stand for zero. -/
theorem value_eq_zero_iff {f : FloatFormat} {word : Nat} (h : f.Finite word) :
    f.value word = 0 ↔ word % 2 ^ (f.fractionBits + f.exponentBits) = 0 := by
  have hsplit : word % 2 ^ (f.fractionBits + f.exponentBits) =
      word % 2 ^ f.fractionBits +
        2 ^ f.fractionBits * (word / 2 ^ f.fractionBits % 2 ^ f.exponentBits) := by
    rw [Nat.pow_add, Nat.mod_mul]
  have hpos : 0 < 2 ^ f.fractionBits := Nat.two_pow_pos _
  have hzero : word % 2 ^ (f.fractionBits + f.exponentBits) = 0 ↔
      word / 2 ^ f.fractionBits % 2 ^ f.exponentBits = 0 ∧ word % 2 ^ f.fractionBits = 0 := by
    rw [hsplit, Nat.add_eq_zero_iff, Nat.mul_eq_zero, and_comm]
    simp only [hpos.ne', false_or]
  have hsign : ∀ (negative : Prop) [Decidable negative] (v : Rat),
      (if negative then -v else v) = 0 ↔ v = 0 := by
    intro negative _ v
    split
    · exact neg_eq_zero
    · exact Iff.rfl
  unfold Finite at h
  rw [hzero, value, hsign]
  by_cases hexponent : word / 2 ^ f.fractionBits % 2 ^ f.exponentBits = 0
  · rw [if_pos hexponent, mul_eq_zero, Nat.cast_eq_zero]
    have hscale : (2 : Rat) ^ (2 - 2 ^ (f.exponentBits - 1) - f.fractionBits : Int) ≠ 0 :=
      zpow_ne_zero _ two_ne_zero
    simp only [hscale, or_false, hexponent, true_and]
  · rw [if_neg hexponent, if_neg h, mul_eq_zero]
    have hscale : (2 : Rat) ^ (2 - 2 ^ (f.exponentBits - 1) - f.fractionBits +
        (word / 2 ^ f.fractionBits % 2 ^ f.exponentBits : Nat) - 1 : Int) ≠ 0 :=
      zpow_ne_zero _ two_ne_zero
    have hleading : (2 : Rat) ^ f.fractionBits + (word % 2 ^ f.fractionBits : Nat) ≠ 0 := by
      positivity
    simp only [hscale, hleading, hexponent, or_false, false_and]

end FloatFormat

end Quantization
