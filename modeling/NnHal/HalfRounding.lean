import NnHal.HalfConversions

/-!
# What `float2half` rounds to

`float2half` returns the half-precision number nearest to a float, and of two that are equally
near the one away from zero.  Between the least normal half and the numbers that are rounded to
infinity `f32tof16` returns the same word.
-/

namespace NnHal

open Quantization

/-! ## Neighbours -/

section Neighbours

variable {p : Nat}

/-- A half-precision magnitude in the units of `float`. -/
def halfUnits (k : Nat) : Nat := FloatFormat.binary16.units k * 2 ^ 125

theorem halfUnits_strictMono : StrictMono halfUnits := by
  intro k l h
  exact Nat.mul_lt_mul_of_pos_right (FloatFormat.units_strictMono h) (Nat.two_pow_pos _)

theorem halfUnits_succ (k : Nat) :
    halfUnits (k + 1) = halfUnits k + 2 ^ (k / 2 ^ 10 - 1) * 2 ^ 125 := by
  have hsucc : FloatFormat.binary16.units (k + 1) =
      FloatFormat.binary16.units k + 2 ^ (k / 2 ^ 10 - 1) := FloatFormat.units_succ k
  unfold halfUnits
  rw [hsucc, Nat.add_mul]

theorem two_pow_place (e : Nat) : 2 ^ e * 2 ^ 125 = 2 ^ 13 * 2 ^ (e + 112) := by
  rw [← Nat.pow_add, ← Nat.pow_add]
  congr 1
  omega

/-- Below the least normal half. -/
theorem units_lt_of_small (h : p < 113 * 2 ^ 23) : FloatFormat.binary32.units p < 2 ^ 135 := by
  have hmono := FloatFormat.units_strictMono (f := .binary32) h
  have hpower := units_binary32 (e := 113) (t := 0) (by decide) (by decide)
  rw [Nat.add_zero] at hpower
  rw [hpower] at hmono
  exact hmono

/-- The neighbours of a float in half precision, and which of them is taken. -/
theorem exists_neighbours (h : p < 143 * 2 ^ 23) :
    ∃ a, halfUnits a ≤ FloatFormat.binary32.units p ∧
      FloatFormat.binary32.units p < halfUnits (a + 1) ∧
      float2halfMagnitude p =
        if 2 * FloatFormat.binary32.units p < halfUnits a + halfUnits (a + 1) then a
        else a + 1 := by
  unfold float2halfMagnitude
  rw [if_neg (by omega)]
  by_cases hsmall : p < 113 * 2 ^ 23
  · -- halves are the multiples of one unit
    have hlt := units_lt_of_small hsmall
    generalize FloatFormat.binary32.units p = u at *
    have hquotient : u / 2 ^ 125 < 2 ^ 10 := by omega
    have hhalf : halfUnits (u / 2 ^ 125) = u / 2 ^ 125 * 2 ^ 125 := by
      have hparts : FloatFormat.binary16.units (0 * 2 ^ 10 + u / 2 ^ 125) =
          if 0 = 0 then u / 2 ^ 125 else (2 ^ 10 + u / 2 ^ 125) * 2 ^ (0 - 1) :=
        FloatFormat.units_parts hquotient
      rw [Nat.zero_mul, Nat.zero_add, if_pos rfl] at hparts
      unfold halfUnits
      rw [hparts]
    have hnext : halfUnits (u / 2 ^ 125 + 1) = (u / 2 ^ 125 + 1) * 2 ^ 125 := by
      rw [halfUnits_succ, hhalf, Nat.div_eq_of_lt hquotient, Nat.zero_sub, Nat.pow_zero,
        Nat.add_mul]
    refine ⟨u / 2 ^ 125, ?_, ?_, ?_⟩
    · rw [hhalf]
      omega
    · rw [hnext]
      omega
    · rw [if_pos hsmall, hhalf, hnext]
      split <;> omega
  · -- halves leave ten bits of the fraction
    obtain ⟨e, he⟩ : ∃ e, p / 2 ^ 23 = e + 113 := ⟨p / 2 ^ 23 - 113, by omega⟩
    obtain ⟨fraction, hfraction⟩ : ∃ fraction, p % 2 ^ 23 = fraction := ⟨_, rfl⟩
    have hparts : p = (e + 113) * 2 ^ 23 + fraction := by omega
    have hkept : fraction / 2 ^ 13 < 2 ^ 10 := by omega
    have hunits : FloatFormat.binary32.units p = (2 ^ 23 + fraction) * 2 ^ (e + 112) := by
      have hpred : e + 113 - 1 = e + 112 := by omega
      rw [hparts, units_binary32 (by omega) (by omega), hpred]
    have hplace := two_pow_place e
    have hpos : 0 < 2 ^ (e + 112) := Nat.two_pow_pos _
    generalize 2 ^ (e + 112) = c at hunits hplace hpos
    have hhalf : halfUnits ((e + 1) * 2 ^ 10 + fraction / 2 ^ 13) =
        (2 ^ 10 + fraction / 2 ^ 13) * 2 ^ 13 * c := by
      have hdigits : FloatFormat.binary16.units ((e + 1) * 2 ^ 10 + fraction / 2 ^ 13) =
          if e + 1 = 0 then fraction / 2 ^ 13
          else (2 ^ 10 + fraction / 2 ^ 13) * 2 ^ (e + 1 - 1) := FloatFormat.units_parts hkept
      unfold halfUnits
      rw [hdigits, if_neg (Nat.succ_ne_zero e), Nat.add_sub_cancel, Nat.mul_assoc, hplace,
        Nat.mul_assoc]
    have hnext : halfUnits ((e + 1) * 2 ^ 10 + fraction / 2 ^ 13 + 1) =
        (2 ^ 10 + fraction / 2 ^ 13 + 1) * 2 ^ 13 * c := by
      have hexponent : ((e + 1) * 2 ^ 10 + fraction / 2 ^ 13) / 2 ^ 10 - 1 = e := by omega
      rw [halfUnits_succ, hhalf, hexponent, hplace]
      ring
    refine ⟨(e + 1) * 2 ^ 10 + fraction / 2 ^ 13, ?_, ?_, ?_⟩
    · rw [hhalf, hunits]
      exact Nat.mul_le_mul_right c (by omega)
    · rw [hnext, hunits]
      exact Nat.mul_lt_mul_of_pos_right (by omega) hpos
    · rw [if_neg hsmall, hhalf, hnext, hunits, ← Nat.mul_assoc, ← Nat.add_mul]
      simp only [Nat.mul_lt_mul_right hpos]
      split <;> omega

end Neighbours

/-! ## The nearest half -/

section Nearest

/-- The word is the IEEE rounding of a float to half precision, ties away from zero. -/
structure IsNearestHalf (x : BitVec 32) (h : BitVec 16) : Prop where
  sign : FloatFormat.binary16.negative h.toNat = FloatFormat.binary32.negative x.toNat
  nan : FloatFormat.binary32.IsNaN x.toNat → FloatFormat.binary16.IsNaN h.toNat
  infinite : FloatFormat.binary32.IsInfinite x.toNat → FloatFormat.binary16.IsInfinite h.toNat
  overflow : FloatFormat.binary32.Finite x.toNat →
    65520 ≤ |FloatFormat.binary32.value x.toNat| → FloatFormat.binary16.IsInfinite h.toNat
  finite : FloatFormat.binary32.Finite x.toNat → |FloatFormat.binary32.value x.toNat| < 65520 →
    FloatFormat.binary16.Finite h.toNat
  nearest : FloatFormat.binary32.Finite x.toNat → |FloatFormat.binary32.value x.toNat| < 65520 →
    ∀ k : BitVec 16, FloatFormat.binary16.Finite k.toNat →
      |FloatFormat.binary32.value x.toNat - FloatFormat.binary16.value h.toNat| ≤
        |FloatFormat.binary32.value x.toNat - FloatFormat.binary16.value k.toNat|
  away : FloatFormat.binary32.Finite x.toNat → |FloatFormat.binary32.value x.toNat| < 65520 →
    ∀ k : BitVec 16, FloatFormat.binary16.Finite k.toNat →
      |FloatFormat.binary32.value x.toNat - FloatFormat.binary16.value h.toNat| =
        |FloatFormat.binary32.value x.toNat - FloatFormat.binary16.value k.toNat| →
      |FloatFormat.binary16.value k.toNat| ≤ |FloatFormat.binary16.value h.toNat|

variable {x : BitVec 32}

/-- Thresholds on the size of a float are thresholds on its magnitude. -/
theorem le_abs_value_iff {q : Rat} {p : Nat} (hfinite : FloatFormat.binary32.Finite x.toNat)
    (hq : q = FloatFormat.binary32.units p * 2 ^ (-149 : Int)) :
    q ≤ |FloatFormat.binary32.value x.toNat| ↔ p ≤ x.toNat % 2 ^ 31 := by
  have hscale : (0 : Rat) < 2 ^ (-149 : Int) := zpow_pos two_pos _
  have hvalue : |FloatFormat.binary32.value x.toNat| =
      FloatFormat.binary32.units (x.toNat % 2 ^ 31) * 2 ^ (-149 : Int) :=
    FloatFormat.abs_value hfinite
  rw [hvalue, hq, mul_le_mul_iff_left₀ hscale, Nat.cast_le, FloatFormat.units_strictMono.le_iff_le]

theorem units_65520 : (65520 : Rat) =
    FloatFormat.binary32.units (142 * 2 ^ 23 + 2047 * 2 ^ 12) * 2 ^ (-149 : Int) := by
  rw [units_binary32 (by decide) (by decide)]
  norm_num

theorem units_leastNormal : (2 : Rat) ^ (-14 : Int) =
    FloatFormat.binary32.units (113 * 2 ^ 23 + 0) * 2 ^ (-149 : Int) := by
  rw [units_binary32 (by decide) (by decide)]
  norm_num

/-- Where a float is rounded to infinity. -/
theorem float2halfMagnitude_eq_infinity_iff {p : Nat} :
    float2halfMagnitude p = 31 * 2 ^ 10 ↔ 142 * 2 ^ 23 + 2047 * 2 ^ 12 ≤ p := by
  unfold float2halfMagnitude
  split_ifs with hover hsmall
  · omega
  · have hlt := units_lt_of_small hsmall
    omega
  · omega

theorem float2halfMagnitude_le (p : Nat) : float2halfMagnitude p ≤ 31 * 2 ^ 10 := by
  unfold float2halfMagnitude
  split_ifs with hover hsmall
  · exact Nat.le_refl _
  · have hlt := units_lt_of_small hsmall
    omega
  · omega

/-- The sign and the magnitude of a half. -/
theorem half_fields {h : BitVec 16} {sign m : Nat} (hh : h.toNat = sign * 2 ^ 15 + m)
    (hsign : sign < 2) (hm : m < 2 ^ 15) :
    FloatFormat.binary16.negative h.toNat = decide (sign = 1) ∧
      FloatFormat.binary16.magnitude h.toNat = m := by
  have hmagnitude : FloatFormat.binary16.magnitude h.toNat = h.toNat % 2 ^ 15 := rfl
  have hnegative : FloatFormat.binary16.negative h.toNat = decide (h.toNat / 2 ^ 15 % 2 = 1) := rfl
  have hiff : h.toNat / 2 ^ 15 % 2 = 1 ↔ sign = 1 := by omega
  rw [hmagnitude, hnegative, decide_eq_decide.mpr hiff]
  exact ⟨rfl, by omega⟩

theorem value_float (hfinite : FloatFormat.binary32.Finite x.toNat) :
    FloatFormat.binary32.value x.toNat =
      (FloatFormat.signed (FloatFormat.binary32.negative x.toNat)
        (FloatFormat.binary32.units (x.toNat % 2 ^ 31)) : Int) * 2 ^ (-149 : Int) :=
  FloatFormat.value_eq hfinite

theorem value_half {h : BitVec 16} (hfinite : FloatFormat.binary16.Finite h.toNat) :
    FloatFormat.binary16.value h.toNat =
      (FloatFormat.signed (FloatFormat.binary16.negative h.toNat)
        (halfUnits (FloatFormat.binary16.magnitude h.toNat)) : Int) * 2 ^ (-149 : Int) := by
  have hvalue : FloatFormat.binary16.value h.toNat =
      (FloatFormat.signed (FloatFormat.binary16.negative h.toNat)
        (FloatFormat.binary16.units (FloatFormat.binary16.magnitude h.toNat)) : Int) *
          2 ^ (-24 : Int) := FloatFormat.value_eq hfinite
  have hscale : (2 : Rat) ^ 125 * 2 ^ (-149 : Int) = 2 ^ (-24 : Int) := by norm_num
  rw [hvalue, ← hscale, ← mul_assoc]
  congr 1
  unfold FloatFormat.signed halfUnits
  split <;> push_cast <;> ring

/-- A number nearer than another of one sign is nearer than one of any sign. -/
theorem natAbs_signed_le {s t : Bool} {u v w : Nat}
    (h : ((u : Int) - v).natAbs ≤ ((u : Int) - w).natAbs) :
    (FloatFormat.signed s u - FloatFormat.signed s v).natAbs ≤
      (FloatFormat.signed s u - FloatFormat.signed t w).natAbs ∧
    ((FloatFormat.signed s u - FloatFormat.signed s v).natAbs =
      (FloatFormat.signed s u - FloatFormat.signed t w).natAbs →
      ((u : Int) - v).natAbs = ((u : Int) - w).natAbs) := by
  unfold FloatFormat.signed
  cases s <;> cases t <;> simp only [Bool.false_eq_true, if_false, if_true] <;> omega

/-- Distances are compared in units. -/
theorem abs_sub_scaled (a b : Int) :
    |(a : Rat) * 2 ^ (-149 : Int) - b * 2 ^ (-149 : Int)| =
      ((a - b).natAbs : Nat) * 2 ^ (-149 : Int) := by
  have hscale : (0 : Rat) < 2 ^ (-149 : Int) := zpow_pos two_pos _
  rw [← sub_mul, abs_mul, abs_of_pos hscale, Nat.cast_natAbs, Int.cast_abs, Int.cast_sub]

/-- The result of a float below 65520. -/
theorem float2half_nearest (hp : x.toNat % 2 ^ 31 < 142 * 2 ^ 23 + 2047 * 2 ^ 12) :
    FloatFormat.binary16.Finite (float2half x).toNat ∧
    ∀ k : BitVec 16, FloatFormat.binary16.Finite k.toNat →
      |FloatFormat.binary32.value x.toNat - FloatFormat.binary16.value (float2half x).toNat| ≤
        |FloatFormat.binary32.value x.toNat - FloatFormat.binary16.value k.toNat| ∧
      (|FloatFormat.binary32.value x.toNat - FloatFormat.binary16.value (float2half x).toNat| =
        |FloatFormat.binary32.value x.toNat - FloatFormat.binary16.value k.toNat| →
        |FloatFormat.binary16.value k.toNat| ≤
          |FloatFormat.binary16.value (float2half x).toNat|) := by
  have hfinite : x.toNat % 2 ^ 31 < 255 * 2 ^ 23 := by omega
  have hwidth : x.toNat < 2 ^ 32 := x.isLt
  have hbits := toNat_float2half hfinite
  have hbound : float2halfMagnitude (x.toNat % 2 ^ 31) < 31 * 2 ^ 10 := by
    apply lt_of_le_of_ne (float2halfMagnitude_le _)
    intro heq
    have hover := float2halfMagnitude_eq_infinity_iff.mp heq
    omega
  obtain ⟨hnegative, hmagnitude⟩ := half_fields hbits (by omega) (by omega)
  have hsign : FloatFormat.binary32.negative x.toNat =
      FloatFormat.binary16.negative (float2half x).toNat := by
    have hiff : x.toNat / 2 ^ 31 % 2 = 1 ↔ x.toNat / 2 ^ 31 = 1 := by omega
    rw [hnegative]
    exact decide_eq_decide.mpr hiff
  have hx : FloatFormat.binary32.Finite x.toNat := FloatFormat.finite_iff.mpr hfinite
  have hh : FloatFormat.binary16.Finite (float2half x).toNat := by
    rw [FloatFormat.finite_iff, hmagnitude]
    exact hbound
  obtain ⟨a, hlow, hhigh, hchoice⟩ := exists_neighbours (p := x.toNat % 2 ^ 31) (by omega)
  refine ⟨hh, fun k hk => ?_⟩
  obtain ⟨hle, haway⟩ := FloatFormat.nearest_of_between halfUnits_strictMono hlow hhigh
    (FloatFormat.binary16.magnitude k.toNat)
  rw [← hchoice] at hle haway
  have hscale : (0 : Rat) < 2 ^ (-149 : Int) := zpow_pos two_pos _
  obtain ⟨hnear, htie⟩ := natAbs_signed_le (s := FloatFormat.binary32.negative x.toNat)
    (t := FloatFormat.binary16.negative k.toNat) hle
  have hdistance : ∀ word : BitVec 16, FloatFormat.binary16.Finite word.toNat →
      |FloatFormat.binary32.value x.toNat - FloatFormat.binary16.value word.toNat| =
        ((FloatFormat.signed (FloatFormat.binary32.negative x.toNat)
            (FloatFormat.binary32.units (x.toNat % 2 ^ 31)) -
          FloatFormat.signed (FloatFormat.binary16.negative word.toNat)
            (halfUnits (FloatFormat.binary16.magnitude word.toNat))).natAbs : Nat) *
          2 ^ (-149 : Int) := by
    intro word hword
    rw [value_float hx, value_half hword, abs_sub_scaled]
  rw [hdistance _ hh, hdistance k hk, ← hsign, hmagnitude]
  refine ⟨mul_le_mul_of_nonneg_right (Nat.cast_le.mpr hnear) hscale.le, fun heq => ?_⟩
  have hequal := Nat.cast_inj.mp (mul_right_cancel₀ hscale.ne' heq)
  have hlarger := haway (htie hequal)
  have hpositive : (0 : Rat) < 2 ^ FloatFormat.binary16.least := zpow_pos two_pos _
  rw [FloatFormat.abs_value hk, FloatFormat.abs_value hh, hmagnitude]
  exact mul_le_mul_of_nonneg_right
    (Nat.cast_le.mpr (FloatFormat.units_strictMono.monotone hlarger)) hpositive.le

/-- The sign is kept, and a magnitude past the finite ones is that of an infinity or a NaN. -/
theorem isNearestHalf_of_bits {h : BitVec 16} {m : Nat}
    (hbits : h.toNat = x.toNat / 2 ^ 31 * 2 ^ 15 + m) (hm : m < 2 ^ 15) :
    FloatFormat.binary16.negative h.toNat = FloatFormat.binary32.negative x.toNat ∧
      (FloatFormat.binary16.IsNaN h.toNat ↔ 31 * 2 ^ 10 < m) ∧
      (FloatFormat.binary16.IsInfinite h.toNat ↔ m = 31 * 2 ^ 10) := by
  have hwidth : x.toNat < 2 ^ 32 := x.isLt
  obtain ⟨hnegative, hmagnitude⟩ := half_fields hbits (by omega) hm
  have hiff : x.toNat / 2 ^ 31 = 1 ↔ x.toNat / 2 ^ 31 % 2 = 1 := by omega
  refine ⟨hnegative.trans (decide_eq_decide.mpr hiff), ?_, ?_⟩
  · unfold FloatFormat.IsNaN
    rw [hmagnitude]
    rfl
  · unfold FloatFormat.IsInfinite
    rw [hmagnitude]
    rfl

/-- A float is rounded to the nearest half, ties away from zero. -/
theorem isNearestHalf_float2half (x : BitVec 32) : IsNearestHalf x (float2half x) := by
  have hfinite : FloatFormat.binary32.Finite x.toNat ↔ x.toNat % 2 ^ 31 < 255 * 2 ^ 23 :=
    FloatFormat.finite_iff
  have hoverflow : FloatFormat.binary32.Finite x.toNat →
      (65520 ≤ |FloatFormat.binary32.value x.toNat| ↔
        142 * 2 ^ 23 + 2047 * 2 ^ 12 ≤ x.toNat % 2 ^ 31) := fun hx =>
    le_abs_value_iff hx units_65520
  have hbelow : FloatFormat.binary32.Finite x.toNat →
      |FloatFormat.binary32.value x.toNat| < 65520 →
      x.toNat % 2 ^ 31 < 142 * 2 ^ 23 + 2047 * 2 ^ 12 := by
    intro hx hlt
    exact Nat.lt_of_not_le fun hle => absurd ((hoverflow hx).mpr hle) (not_le.mpr hlt)
  obtain ⟨m, hm, hbits, hvalue, hspecial⟩ : ∃ m < 2 ^ 15,
      (float2half x).toNat = x.toNat / 2 ^ 31 * 2 ^ 15 + m ∧
      (x.toNat % 2 ^ 31 < 255 * 2 ^ 23 → m = float2halfMagnitude (x.toNat % 2 ^ 31)) ∧
      (255 * 2 ^ 23 ≤ x.toNat % 2 ^ 31 →
        (m = 31 * 2 ^ 10 ↔ x.toNat % 2 ^ 31 = 255 * 2 ^ 23) ∧ 31 * 2 ^ 10 ≤ m) := by
    rcases Nat.lt_or_ge (x.toNat % 2 ^ 31) (255 * 2 ^ 23) with hlt | hge
    · have hle := float2halfMagnitude_le (x.toNat % 2 ^ 31)
      exact ⟨_, by omega, toNat_float2half hlt, fun _ => rfl, fun hge => absurd hlt (by omega)⟩
    · obtain ⟨m, hm, hbits, hspecial⟩ := toNat_float2half_special hge
      exact ⟨m, hm, hbits, fun hlt => absurd hlt (by omega), fun _ => hspecial⟩
  obtain ⟨hsign, hnan, hinfinite⟩ := isNearestHalf_of_bits hbits hm
  constructor
  · exact hsign
  · intro hx
    have hgt : 255 * 2 ^ 23 < x.toNat % 2 ^ 31 := hx
    obtain ⟨hinfinity, hle⟩ := hspecial hgt.le
    rw [hnan]
    omega
  · intro hx
    have heq : x.toNat % 2 ^ 31 = 255 * 2 ^ 23 := hx
    exact hinfinite.mpr ((hspecial heq.ge).1.mpr heq)
  · intro hx hlarge
    rw [hinfinite, hvalue (hfinite.mp hx), float2halfMagnitude_eq_infinity_iff]
    exact (hoverflow hx).mp hlarge
  · intro hx hlt
    exact (float2half_nearest (hbelow hx hlt)).1
  · intro hx hlt k hk
    exact ((float2half_nearest (hbelow hx hlt)).2 k hk).1
  · intro hx hlt k hk
    exact ((float2half_nearest (hbelow hx hlt)).2 k hk).2

/-- **The two encoders.**  `float2half` is the rounding of IEEE to the nearest half with ties
away from zero, and from the least normal half up to the numbers that are rounded to infinity
`f32tof16` returns the same word. -/
theorem float2half_rounds (x : BitVec 32) :
    IsNearestHalf x (float2half x) ∧
      (FloatFormat.binary32.Finite x.toNat →
        2 ^ (-14 : Int) ≤ |FloatFormat.binary32.value x.toNat| →
        |FloatFormat.binary32.value x.toNat| < 65520 → float2half x = f32tof16 x) := by
  refine ⟨isNearestHalf_float2half x, fun hx hlow hhigh => ?_⟩
  have hfinite : x.toNat % 2 ^ 31 < 255 * 2 ^ 23 := FloatFormat.finite_iff.mp hx
  have hlow' : 113 * 2 ^ 23 + 0 ≤ x.toNat % 2 ^ 31 :=
    (le_abs_value_iff hx units_leastNormal).mp hlow
  have hhigh' : ¬ 142 * 2 ^ 23 + 2047 * 2 ^ 12 ≤ x.toNat % 2 ^ 31 := fun hle =>
    absurd ((le_abs_value_iff hx units_65520).mpr hle) (not_le.mpr hhigh)
  rw [← BitVec.toNat_inj, toNat_float2half hfinite, toNat_f32tof16 hfinite]
  unfold float2halfMagnitude f32tof16Magnitude
  split_ifs <;> omega

/-- Halfway between two and the next half. -/
theorem float2half_rounds_tie :
    IsNearestHalf 0x40001000 (float2half 0x40001000) ∧
      float2half 0x40001000 = f32tof16 0x40001000 := by
  have hword : (0x40001000 : BitVec 32).toNat = 0x40001000 := rfl
  have hvalue : FloatFormat.binary32.value (0x40001000 : BitVec 32).toNat = 2049 / 1024 := by
    rw [hword]
    norm_num [FloatFormat.value, FloatFormat.binary32]
  have hrounds := float2half_rounds 0x40001000
  refine ⟨hrounds.1, hrounds.2 (by unfold FloatFormat.Finite; decide) ?_ ?_⟩
  · rw [hvalue]
    norm_num
  · rw [hvalue]
    norm_num

/-- Every element a loop of `floattofp16` counts is rounded so. -/
theorem floattofp16_rounds {dst : List (BitVec 16)} {src : List (BitVec 32)} {nelem i : Nat}
    (hsrc : nelem ≤ src.length) (hdst : nelem ≤ dst.length) (hi : i < nelem) :
    IsNearestHalf (src.getD i default) ((floattofp16 dst src nelem).getD i default) := by
  have helement : (floattofp16 dst src nelem).getD i default = float2half (src.getD i default) := by
    have htake : i < ((src.take nelem).map float2half).length := by
      rw [List.length_map, List.length_take]
      omega
    unfold floattofp16
    rw [convertElements_eq float2half dst src hsrc hdst, List.getD_append _ _ _ _ htake,
      List.getD_eq_getElem _ _ htake, List.getElem_map, List.getElem_take,
      List.getD_eq_getElem _ _ (by omega)]
  rw [helement]
  exact isNearestHalf_float2half _

end Nearest

end NnHal
