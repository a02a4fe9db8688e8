import Mathlib.Data.Nat.Bitwise
import NnHal.FloatingWords

/-!
# Conversions between `float` and half-precision words

`utils.cpp` has two encoders, `float2half` on the bits alone and `f32tof16` with additions and
comparisons of floats, and the decoder `f16tof32`.  A float is its pattern here, and `short` a
pattern of 16 bits.
-/

namespace NnHal

open Quantization

/-! ## Floats as patterns -/

/-- `EXP_MASK_F32` and `EXP_MASK_F16`. -/
def expMaskF32 : BitVec 32 := 0x7F800000
def expMaskF16 : BitVec 32 := 0x7C00

namespace Binary32

def add (x y : BitVec 32) : BitVec 32 :=
  .ofNat 32 (FloatFormat.binary32.add x.toNat y.toNat)

def mul (x y : BitVec 32) : BitVec 32 :=
  .ofNat 32 (FloatFormat.binary32.mul x.toNat y.toNat)

def lt (x y : BitVec 32) : Prop := FloatFormat.binary32.lt x.toNat y.toNat

def le (x y : BitVec 32) : Prop := FloatFormat.binary32.le x.toNat y.toNat

instance (x y : BitVec 32) : Decidable (lt x y) :=
  inferInstanceAs (Decidable (FloatFormat.binary32.lt _ _))

instance (x y : BitVec 32) : Decidable (le x y) :=
  inferInstanceAs (Decidable (FloatFormat.binary32.le _ _))

end Binary32

/-- `asfloat`: the pattern read as a float. -/
def asfloat (v : BitVec 32) : BitVec 32 := v

/-! ## The conversions -/

/-- `float2half`, with the `NPY_HALF_*` macros undefined. -/
def float2half (f : BitVec 32) : BitVec 16 :=
  let h_sgn := ((f &&& 0x80000000) >>> 16).setWidth 16
  let f_exp := f &&& 0x7f800000
  if 0x47800000 ≤ f_exp then
    if f_exp = 0x7f800000 then
      let f_sig := f &&& 0x007fffff
      if f_sig ≠ 0 then
        -- a NaN keeps the upper bits of its significand, and stays a NaN
        let ret := ((0x7c00 : BitVec 32) + f_sig >>> 13).setWidth 16
        h_sgn + if ret = 0x7c00 then ret + 1 else ret
      else h_sgn + 0x7c00
    else h_sgn + 0x7c00
  else if f_exp ≤ 0x38000000 then
    if f_exp < 0x33000000 then h_sgn
    else
      let f_exp := f_exp >>> 23
      let f_sig := 0x00800000 + (f &&& 0x007fffff)
      let f_sig := f_sig >>> (113 - f_exp)
      let f_sig := f_sig + 0x00001000
      let h_sig := (f_sig >>> 13).setWidth 16
      h_sgn + h_sig
  else
    let h_exp := ((f_exp - 0x38000000) >>> 13).setWidth 16
    let f_sig := f &&& 0x007fffff
    let f_sig := f_sig + 0x00001000
    let h_sig := (f_sig >>> 13).setWidth 16
    h_sgn + h_exp + h_sig

/-- `f16tof32`; `short` is extended by its sign. -/
def f16tof32 (x : BitVec 16) : BitVec 32 :=
  let u := x.signExtend 32
  let s := (u &&& 0x8000) <<< 16
  if u &&& expMaskF16 = expMaskF16 then
    let u := u &&& 0x03FF
    let u := if u ≠ 0 then u ||| 0x0200 else u
    let u := u <<< (23 - 10)
    let u := u ||| expMaskF32
    u ||| s
  else if x.signExtend 32 &&& expMaskF16 = 0 then s
  else
    let u := u &&& 0x7FFF
    let u := u <<< (23 - 10)
    let u := u + (127 - 15 : BitVec 32) <<< 23
    u ||| s

/-- `f32tof16`; the result is cut down to a `short`. -/
def f32tof16 (x : BitVec 32) : BitVec 16 :=
  let min16 := asfloat ((127 - 14 : BitVec 32) <<< 23)
  let max16 := asfloat ((127 + 15 : BitVec 32) <<< 23 ||| 0x007FE000)
  let max16f16 := (15 + 15 : BitVec 32) <<< 10 ||| 0x3FF
  let s := (x >>> 16) &&& 0x8000
  let v := x &&& 0x7FFFFFFF
  if v &&& expMaskF32 = expMaskF32 then
    if v &&& 0x007FFFFF ≠ 0 then (s ||| v >>> (23 - 10) ||| 0x0200).setWidth 16
    else (s ||| v >>> (23 - 10)).setWidth 16
  else
    let halfULP :=
      Binary32.mul (asfloat (v &&& expMaskF32)) (asfloat ((127 - 11 : BitVec 32) <<< 23))
    let v := Binary32.add v halfULP
    -- `0.5F`
    if Binary32.lt v (Binary32.mul min16 0x3F000000) then s.setWidth 16
    else if Binary32.lt v min16 then (s ||| (1 : BitVec 32) <<< 10).setWidth 16
    else if Binary32.le max16 v then (max16f16 ||| s).setWidth 16
    else
      let v := v - (127 - 15 : BitVec 32) <<< 23
      let v := v >>> (23 - 10)
      (v ||| s).setWidth 16

/-- The loop of the three array conversions. -/
def convertElements {α β : Type} [Inhabited α] (convert : α → β) (dst : List β) (src : List α)
    (nelem : Nat) : List β :=
  (List.range nelem).foldl (fun dst i => dst.set i (convert (src.getD i default))) dst

def floattofp16 (dst : List (BitVec 16)) (src : List (BitVec 32)) (nelem : Nat) :
    List (BitVec 16) :=
  convertElements float2half dst src nelem

def f16tof32Arrays (dst : List (BitVec 32)) (src : List (BitVec 16)) (nelem : Nat)
    (scale bias : BitVec 32) : List (BitVec 32) :=
  convertElements (fun x => Binary32.add (Binary32.mul (f16tof32 x) scale) bias) dst src nelem

def f32tof16Arrays (dst : List (BitVec 16)) (src : List (BitVec 32)) (nelem : Nat)
    (scale bias : BitVec 32) : List (BitVec 16) :=
  convertElements (fun x => f32tof16 (Binary32.add (Binary32.mul x scale) bias)) dst src nelem

/-- A loop within its arrays converts the elements it counts and leaves the rest. -/
theorem convertElements_eq {α β : Type} [Inhabited α] (convert : α → β) (dst : List β)
    (src : List α) {nelem : Nat} (hsrc : nelem ≤ src.length) (hdst : nelem ≤ dst.length) :
    convertElements convert dst src nelem =
      (src.take nelem).map convert ++ dst.drop nelem := by
  induction nelem with
  | zero => rfl
  | succ n ih =>
    have hprefix := ih (by omega) (by omega)
    unfold convertElements at hprefix ⊢
    rw [List.range_succ, List.foldl_append, hprefix, List.foldl_cons, List.foldl_nil]
    have hlength : ((src.take n).map convert).length = n := by
      rw [List.length_map, List.length_take]
      omega
    have helement : src.getD n default = src[n] := List.getD_eq_getElem _ _ (by omega)
    rw [List.set_append_right _ _ hlength.le, hlength, Nat.sub_self,
      List.drop_eq_getElem_cons (by omega : n < dst.length), List.set_cons_zero, helement,
      List.take_succ_eq_append_getElem (by omega), List.map_append, List.append_assoc]
    rfl

example : float2half 0x3fc00000 = 0x3e00 ∧ f32tof16 0x3fc00000 = 0x3e00 := by decide +kernel

/-! ## Fields -/

section Fields

/-- A mask selects a field. -/
theorem and_mask (n a b : Nat) : n &&& ((2 ^ b - 1) * 2 ^ a) = n / 2 ^ a % 2 ^ b * 2 ^ a := by
  apply Nat.eq_of_testBit_eq
  intro i
  rw [Nat.testBit_and, Nat.testBit_mul_two_pow, Nat.testBit_mul_two_pow,
    Nat.testBit_two_pow_sub_one, Nat.testBit_mod_two_pow, Nat.testBit_div_two_pow]
  by_cases h : a ≤ i
  · simp [h, Bool.and_comm]
  · simp [h]

theorem toNat_and_mask {w : Nat} {x mask : BitVec w} (a b : Nat)
    (h : mask.toNat = (2 ^ b - 1) * 2 ^ a) :
    (x &&& mask).toNat = x.toNat / 2 ^ a % 2 ^ b * 2 ^ a := by
  rw [BitVec.toNat_and, h, and_mask]

/-- Disjoint fields are put together by an `or`. -/
theorem or_of_lt {a b n : Nat} (h : b < 2 ^ n) : a * 2 ^ n ||| b = a * 2 ^ n + b := by
  rw [Nat.mul_comm, Nat.two_pow_add_eq_or_of_lt h]

variable {x : BitVec 32}

theorem toNat_magnitude : (x &&& 0x7FFFFFFF).toNat = x.toNat % 2 ^ 31 := by
  rw [toNat_and_mask 0 31 rfl, Nat.pow_zero, Nat.div_one, Nat.mul_one]

theorem toNat_fraction : (x &&& 0x007FFFFF).toNat = x.toNat % 2 ^ 23 := by
  rw [toNat_and_mask 0 23 rfl, Nat.pow_zero, Nat.div_one, Nat.mul_one]

theorem toNat_exponent : (x &&& 0x7F800000).toNat = x.toNat / 2 ^ 23 % 2 ^ 8 * 2 ^ 23 :=
  toNat_and_mask 23 8 rfl

theorem toNat_sign : ((x >>> 16) &&& 0x8000).toNat = x.toNat / 2 ^ 31 * 2 ^ 15 := by
  have hlt : x.toNat < 2 ^ 32 := x.isLt
  rw [toNat_and_mask 15 1 rfl, BitVec.toNat_ushiftRight, Nat.shiftRight_eq_div_pow]
  omega

end Fields

/-! ## `float2half` -/

section Float2half

variable {f : BitVec 32}

/-- The magnitude `float2half` returns for that of a finite float. -/
def float2halfMagnitude (p : Nat) : Nat :=
  if 143 * 2 ^ 23 ≤ p then 31 * 2 ^ 10
  else if p < 113 * 2 ^ 23 then (FloatFormat.binary32.units p + 2 ^ 124) / 2 ^ 125
  else (p - 112 * 2 ^ 23 + 2 ^ 12) / 2 ^ 13

theorem toNat_halfSign :
    (((f &&& 0x80000000) >>> 16).setWidth 16).toNat = f.toNat / 2 ^ 31 * 2 ^ 15 := by
  have hlt : f.toNat < 2 ^ 32 := f.isLt
  rw [BitVec.toNat_setWidth, BitVec.toNat_ushiftRight, toNat_and_mask 31 1 rfl,
    Nat.shiftRight_eq_div_pow]
  omega

/-- Shifting out bits before half of the last place is added changes nothing. -/
theorem round_shifted (t s k : Nat) :
    (t / 2 ^ s + 2 ^ 12) / 2 ^ 13 = (t * 2 ^ k + 2 ^ (12 + s + k)) / 2 ^ (13 + s + k) := by
  have hhalf : t * 2 ^ k + 2 ^ (12 + s + k) = (t + 2 ^ 12 * 2 ^ s) * 2 ^ k := by
    rw [Nat.add_mul, Nat.pow_add, Nat.pow_add]
  have hunit : 2 ^ (13 + s + k) = 2 ^ s * 2 ^ 13 * 2 ^ k := by
    rw [Nat.pow_add, Nat.pow_add, Nat.mul_comm (2 ^ s)]
  rw [hhalf, hunit, Nat.mul_div_mul_right _ _ (Nat.two_pow_pos k), ← Nat.div_div_eq_div_mul,
    Nat.add_mul_div_right _ _ (Nat.two_pow_pos s)]

theorem units_binary32 {e t : Nat} (he : e ≠ 0) (ht : t < 2 ^ 23) :
    FloatFormat.binary32.units (e * 2 ^ 23 + t) = (2 ^ 23 + t) * 2 ^ (e - 1) := by
  have hparts : FloatFormat.binary32.units (e * 2 ^ 23 + t) =
      if e = 0 then t else (2 ^ 23 + t) * 2 ^ (e - 1) := FloatFormat.units_parts ht
  rw [hparts, if_neg he]

/-- A subnormal result is shifted, rounded and shifted again. -/
theorem toNat_subnormal (hlow : 102 * 2 ^ 23 ≤ f.toNat % 2 ^ 31)
    (hhigh : f.toNat % 2 ^ 31 < 113 * 2 ^ 23) :
    ((((0x00800000 + (f &&& 0x007fffff)) >>> ((113 : BitVec 32) - (f &&& 0x7f800000) >>> 23) +
      0x00001000) >>> 13).setWidth 16).toNat =
        (FloatFormat.binary32.units (f.toNat % 2 ^ 31) + 2 ^ 124) / 2 ^ 125 ∧
      (FloatFormat.binary32.units (f.toNat % 2 ^ 31) + 2 ^ 124) / 2 ^ 125 < 2 ^ 15 := by
  have hexponent := toNat_exponent (x := f)
  obtain ⟨e, he⟩ : ∃ e, f.toNat / 2 ^ 23 % 2 ^ 8 = e := ⟨_, rfl⟩
  have hbounds : 102 ≤ e ∧ e ≤ 112 := by omega
  have hparts : f.toNat % 2 ^ 31 = e * 2 ^ 23 + f.toNat % 2 ^ 23 := by omega
  have hshift : ((113 : BitVec 32) - (f &&& 0x7f800000) >>> 23).toNat = 113 - e := by
    rw [BitVec.toNat_sub, BitVec.toNat_ushiftRight, hexponent, he, Nat.shiftRight_eq_div_pow]
    change (2 ^ 32 - e * 2 ^ 23 / 2 ^ 23 + 113) % 2 ^ 32 = _
    omega
  have hsum : (0x00800000 + (f &&& 0x007fffff)).toNat = 2 ^ 23 + f.toNat % 2 ^ 23 := by
    rw [BitVec.toNat_add, toNat_fraction]
    change (8388608 + _) % 2 ^ 32 = _
    omega
  have hround := round_shifted (2 ^ 23 + f.toNat % 2 ^ 23) (113 - e) (e - 1)
  have hhalf : 12 + (113 - e) + (e - 1) = 124 := by omega
  have hunit : 13 + (113 - e) + (e - 1) = 125 := by omega
  rw [hhalf, hunit] at hround
  have hsmall : (2 ^ 23 + f.toNat % 2 ^ 23) / 2 ^ (113 - e) ≤ 2 ^ 23 + f.toNat % 2 ^ 23 :=
    Nat.div_le_self _ _
  rw [hparts, units_binary32 (by omega) (by omega), ← hround, BitVec.toNat_setWidth,
    BitVec.toNat_ushiftRight, BitVec.toNat_add, BitVec.ushiftRight_eq',
    BitVec.toNat_ushiftRight, hshift, hsum, Nat.shiftRight_eq_div_pow, Nat.shiftRight_eq_div_pow]
  change (_ + 4096) % 2 ^ 32 / 2 ^ 13 % 2 ^ 16 = _ ∧ _
  omega

/-- The sign and the magnitude of the result. -/
theorem toNat_float2half (hfinite : f.toNat % 2 ^ 31 < 255 * 2 ^ 23) :
    (float2half f).toNat = f.toNat / 2 ^ 31 * 2 ^ 15 + float2halfMagnitude (f.toNat % 2 ^ 31) := by
  have hsign := toNat_halfSign (f := f)
  have hexponent := toNat_exponent (x := f)
  have hlt : f.toNat < 2 ^ 32 := f.isLt
  have hover : 0x47800000 ≤ f &&& 0x7f800000 ↔ 143 * 2 ^ 23 ≤ f.toNat % 2 ^ 31 := by
    rw [BitVec.le_def, hexponent]
    change 0x47800000 ≤ _ ↔ _
    omega
  have hunder : f &&& 0x7f800000 ≤ 0x38000000 ↔ f.toNat % 2 ^ 31 < 113 * 2 ^ 23 := by
    rw [BitVec.le_def, hexponent]
    change _ ≤ 0x38000000 ↔ _
    omega
  have hzero : f &&& 0x7f800000 < 0x33000000 ↔ f.toNat % 2 ^ 31 < 102 * 2 ^ 23 := by
    rw [BitVec.lt_def, hexponent]
    change _ < 0x33000000 ↔ _
    omega
  have hspecial : f &&& 0x7f800000 ≠ 0x7f800000 := by
    rw [ne_eq, ← BitVec.toNat_inj, hexponent]
    change ¬ _ = 0x7f800000
    omega
  unfold float2half float2halfMagnitude
  dsimp only
  simp only [hover, hunder, hzero, if_neg hspecial]
  split_ifs with h1 h2 h3
  · rw [BitVec.toNat_add, hsign]
    change (_ + 0x7c00) % 2 ^ 16 = _
    omega
  · -- below half of the least number
    have hunits : FloatFormat.binary32.units (f.toNat % 2 ^ 31) < 2 ^ 124 := by
      have hmono := FloatFormat.units_strictMono (f := .binary32) h3
      have hpower := units_binary32 (e := 102) (t := 0) (by decide) (by decide)
      rw [Nat.add_zero] at hpower
      rw [hpower] at hmono
      exact hmono
    rw [hsign]
    omega
  · obtain ⟨hsignificand, hbound⟩ := toNat_subnormal (f := f) (by omega) (by omega)
    rw [BitVec.toNat_add, hsign, hsignificand]
    omega
  · rw [BitVec.toNat_add, BitVec.toNat_add, hsign, BitVec.toNat_setWidth, BitVec.toNat_setWidth,
      BitVec.toNat_ushiftRight, BitVec.toNat_ushiftRight, BitVec.toNat_add, BitVec.toNat_sub,
      toNat_fraction, hexponent, Nat.shiftRight_eq_div_pow, Nat.shiftRight_eq_div_pow]
    change ((_ + (2 ^ 32 - 939524096 + _) % 2 ^ 32 / 2 ^ 13 % 2 ^ 16) % 2 ^ 16 +
      (_ + 4096) % 2 ^ 32 / 2 ^ 13 % 2 ^ 16) % 2 ^ 16 = _
    omega

/-- An infinity and a NaN. -/
theorem toNat_float2half_special (hspecial : 255 * 2 ^ 23 ≤ f.toNat % 2 ^ 31) :
    ∃ m < 2 ^ 15, (float2half f).toNat = f.toNat / 2 ^ 31 * 2 ^ 15 + m ∧
      (m = 31 * 2 ^ 10 ↔ f.toNat % 2 ^ 31 = 255 * 2 ^ 23) ∧ 31 * 2 ^ 10 ≤ m := by
  have hsign := toNat_halfSign (f := f)
  have hexponent := toNat_exponent (x := f)
  have hlt : f.toNat < 2 ^ 32 := f.isLt
  have hfield : f &&& 0x7f800000 = 0x7f800000 := by
    rw [← BitVec.toNat_inj, hexponent]
    change _ = 0x7f800000
    omega
  have hover : 0x47800000 ≤ f &&& 0x7f800000 := by
    rw [hfield]
    decide
  have hzero : f &&& 0x007fffff ≠ 0 ↔ f.toNat % 2 ^ 23 ≠ 0 := by
    rw [ne_eq, ← BitVec.toNat_inj, toNat_fraction]
    rfl
  have hret : (((0x7c00 : BitVec 32) + (f &&& 0x007fffff) >>> 13).setWidth 16).toNat =
      31 * 2 ^ 10 + f.toNat % 2 ^ 23 / 2 ^ 13 := by
    rw [BitVec.toNat_setWidth, BitVec.toNat_add, BitVec.toNat_ushiftRight, toNat_fraction,
      Nat.shiftRight_eq_div_pow]
    change (31744 + _) % 2 ^ 32 % 2 ^ 16 = _
    omega
  unfold float2half
  dsimp only
  rw [if_pos hover, if_pos hfield]
  simp only [hzero]
  split_ifs with h1 h2
  · refine ⟨31 * 2 ^ 10 + 1, by decide, ?_, by omega, by decide⟩
    rw [BitVec.toNat_add, hsign, h2]
    change (_ + 31745) % 2 ^ 16 = _
    omega
  · have hreal : f.toNat % 2 ^ 23 / 2 ^ 13 ≠ 0 := by
      intro hdrop
      apply h2
      rw [← BitVec.toNat_inj, hret, hdrop]
      rfl
    refine ⟨31 * 2 ^ 10 + f.toNat % 2 ^ 23 / 2 ^ 13, by omega, ?_, by omega, by omega⟩
    rw [BitVec.toNat_add, hsign, hret]
    omega
  · refine ⟨31 * 2 ^ 10, by decide, ?_, by omega, Nat.le_refl _⟩
    rw [BitVec.toNat_add, hsign]
    change (_ + 31744) % 2 ^ 16 = _
    omega

end Float2half

/-! ## `f32tof16` -/

section F32tof16

variable {x : BitVec 32}

/-- A power of two of units is a number. -/
theorem exists_units_eq_pow {j : Nat} (h : j < 277) :
    ∃ r < FloatFormat.binary32.infinity, FloatFormat.binary32.units r = 2 ^ j := by
  have hinfinity : FloatFormat.binary32.infinity = 255 * 2 ^ 23 := rfl
  by_cases hj : j < 23
  · have hlt : 2 ^ j < 2 ^ 23 := Nat.pow_lt_pow_right (by decide) hj
    have hparts : FloatFormat.binary32.units (0 * 2 ^ 23 + 2 ^ j) =
        if 0 = 0 then 2 ^ j else (2 ^ 23 + 2 ^ j) * 2 ^ (0 - 1) := FloatFormat.units_parts hlt
    rw [Nat.zero_mul, Nat.zero_add, if_pos rfl] at hparts
    exact ⟨2 ^ j, by omega, hparts⟩
  · refine ⟨(j - 22) * 2 ^ 23 + 0, by omega, ?_⟩
    rw [units_binary32 (by omega) (by decide), Nat.add_zero, ← Nat.pow_add]
    congr 1
    omega

/-- `halfULP` is half of the last place of the half-precision number. -/
theorem exists_halfULP {v : BitVec 32} (hv : v.toNat < 255 * 2 ^ 23) :
    ∃ r < FloatFormat.binary32.infinity,
      (Binary32.mul (asfloat (v &&& expMaskF32)) (asfloat ((127 - 11 : BitVec 32) <<< 23))).toNat =
        r ∧ FloatFormat.binary32.units r =
          if v.toNat / 2 ^ 23 = 0 then 0 else 2 ^ (v.toNat / 2 ^ 23 + 11) := by
  have hinfinity : FloatFormat.binary32.infinity = 255 * 2 ^ 23 := rfl
  have hleast : FloatFormat.binary32.least = -149 := rfl
  have hexponent : (asfloat (v &&& expMaskF32)).toNat = v.toNat / 2 ^ 23 * 2 ^ 23 := by
    have hfield : v.toNat / 2 ^ 23 % 2 ^ 8 = v.toNat / 2 ^ 23 := Nat.mod_eq_of_lt (by omega)
    exact toNat_exponent.trans (by rw [hfield])
  have hfactor : (asfloat ((127 - 11 : BitVec 32) <<< 23)).toNat = 116 * 2 ^ 23 + 0 := rfl
  have hscale : FloatFormat.binary32.units (116 * 2 ^ 23 + 0) = 2 ^ 138 := by
    rw [units_binary32 (by decide) (by decide)]
    decide +kernel
  have hmul : ∀ r ≤ FloatFormat.binary32.infinity,
      (FloatFormat.binary32.units (v.toNat / 2 ^ 23 * 2 ^ 23) *
        FloatFormat.binary32.units (116 * 2 ^ 23 + 0) : Rat) * 2 ^ FloatFormat.binary32.least =
          FloatFormat.binary32.units r →
      (Binary32.mul (asfloat (v &&& expMaskF32))
        (asfloat ((127 - 11 : BitVec 32) <<< 23))).toNat = r := by
    intro r hr hproduct
    unfold Binary32.mul
    rw [hexponent, hfactor, FloatFormat.mul_of_lt (by omega) (by omega) hr hproduct,
      BitVec.toNat_ofNat]
    omega
  by_cases hzero : v.toNat / 2 ^ 23 = 0
  · refine ⟨0, by omega, hmul 0 (Nat.zero_le _) ?_, ?_⟩
    · rw [hzero, Nat.zero_mul, FloatFormat.units_zero, Nat.cast_zero, zero_mul, zero_mul]
    · rw [if_pos hzero, FloatFormat.units_zero]
  · obtain ⟨r, hr, hunits⟩ : ∃ r < FloatFormat.binary32.infinity,
        FloatFormat.binary32.units r = 2 ^ (v.toNat / 2 ^ 23 + 11) :=
      exists_units_eq_pow (by omega)
    have hpower : FloatFormat.binary32.units (v.toNat / 2 ^ 23 * 2 ^ 23) =
        2 ^ (22 + v.toNat / 2 ^ 23) := by
      have hparts := units_binary32 (t := 0) hzero (by decide)
      rw [Nat.add_zero, Nat.add_zero, ← Nat.pow_add] at hparts
      rw [hparts]
      congr 1
      omega
    refine ⟨r, hr, hmul r hr.le ?_, by rw [if_neg hzero, hunits]⟩
    have hexact : (2 : Rat) ^ 149 * 2 ^ (-149 : Int) = 1 := by norm_num
    have hsplit : (2 : Rat) ^ (22 + v.toNat / 2 ^ 23) * 2 ^ 138 =
        2 ^ (v.toNat / 2 ^ 23 + 11) * 2 ^ 149 := by
      rw [← pow_add, ← pow_add]
      congr 1
      omega
    rw [hpower, hscale, hunits, hleast, Nat.cast_pow, Nat.cast_pow, Nat.cast_pow, Nat.cast_ofNat,
      hsplit, mul_assoc, hexact, mul_one]

theorem encode_units_binary32 {p : Nat} (h : p ≤ 255 * 2 ^ 23) :
    FloatFormat.binary32.encode (FloatFormat.binary32.units p) = p := FloatFormat.encode_units h

theorem encode_le_binary32 (q : Rat) : FloatFormat.binary32.encode q ≤ 255 * 2 ^ 23 :=
  FloatFormat.encode_le q

/-- Adding half of the last place: exact within a binade, and at the start of the next one
otherwise. -/
theorem add_half {p r : Nat} (hp : p < 255 * 2 ^ 23) (hr : r < FloatFormat.binary32.infinity)
    (hunits : FloatFormat.binary32.units r =
      if p / 2 ^ 23 = 0 then 0 else 2 ^ (p / 2 ^ 23 + 11)) :
    FloatFormat.binary32.add p r ≤ 255 * 2 ^ 23 ∧
      (p < 2 ^ 23 ∧ FloatFormat.binary32.add p r = p ∨
        FloatFormat.binary32.add p r = p + 2 ^ 12 ∨
        (p / 2 ^ 23 + 1) * 2 ^ 23 ≤ p + 2 ^ 12 ∧
          (p / 2 ^ 23 + 1) * 2 ^ 23 ≤ FloatFormat.binary32.add p r ∧
          FloatFormat.binary32.add p r ≤ (p / 2 ^ 23 + 1) * 2 ^ 23 + 2 ^ 11) := by
  rw [FloatFormat.add_of_lt hp hr]
  clear hr
  refine ⟨encode_le_binary32 _, ?_⟩
  by_cases hzero : p / 2 ^ 23 = 0
  · left
    rw [hunits, if_pos hzero, Nat.add_zero, encode_units_binary32 (by omega)]
    omega
  right
  obtain ⟨e, he⟩ : ∃ e, p / 2 ^ 23 = e := ⟨_, rfl⟩
  obtain ⟨fraction, hfraction⟩ : ∃ fraction, p % 2 ^ 23 = fraction := ⟨_, rfl⟩
  have hparts : p = e * 2 ^ 23 + fraction := by omega
  have hsum : FloatFormat.binary32.units p + FloatFormat.binary32.units r =
      (2 ^ 23 + fraction + 2 ^ 12) * 2 ^ (e - 1) := by
    have hpower : 2 ^ (e + 11) = 2 ^ 12 * 2 ^ (e - 1) := by
      rw [← Nat.pow_add]
      congr 1
      omega
    rw [hunits, if_neg hzero, he, hpower, hparts, units_binary32 (by omega) (by omega)]
    ring
  rw [hsum, he]
  clear hsum hunits
  by_cases hcarry : fraction + 2 ^ 12 < 2 ^ 23
  · left
    have hexact : (2 ^ 23 + fraction + 2 ^ 12) * 2 ^ (e - 1) =
        FloatFormat.binary32.units (e * 2 ^ 23 + (fraction + 2 ^ 12)) := by
      rw [units_binary32 (by omega) hcarry, Nat.add_assoc]
    rw [hexact, encode_units_binary32 (by omega)]
    omega
  · right
    have hstart : (e + 1) * 2 ^ 23 ≤ p + 2 ^ 12 := by omega
    have hle : e + 1 ≤ 255 := by omega
    have hnext : (e + 1) * 2 ^ 23 ≤ 255 * 2 ^ 23 := Nat.mul_le_mul_right _ hle
    have hlast : e < 254 → (e + 1) * 2 ^ 23 + 2 ^ 11 ≤ 255 * 2 ^ 23 := by omega
    have hend : ¬ e < 254 → 255 * 2 ^ 23 ≤ (e + 1) * 2 ^ 23 + 2 ^ 11 := by omega
    have hdouble : 2 ^ (e + 1 - 1) = 2 * 2 ^ (e - 1) := by
      rw [← Nat.pow_succ']
      congr 1
      omega
    have hlow : FloatFormat.binary32.units ((e + 1) * 2 ^ 23) ≤
        (2 ^ 23 + fraction + 2 ^ 12) * 2 ^ (e - 1) := by
      have hunits := units_binary32 (e := e + 1) (t := 0) (Nat.succ_ne_zero e) (by decide)
      rw [Nat.add_zero, Nat.add_zero, hdouble, ← Nat.mul_assoc] at hunits
      rw [hunits]
      exact Nat.mul_le_mul_right _ (by omega)
    have hhigh : (2 ^ 23 + fraction + 2 ^ 12) * 2 ^ (e - 1) ≤
        FloatFormat.binary32.units ((e + 1) * 2 ^ 23 + 2 ^ 11) := by
      rw [units_binary32 (by omega) (by omega), hdouble, ← Nat.mul_assoc]
      exact Nat.mul_le_mul_right _ (by omega)
    have hbelow := FloatFormat.encode_mono (f := .binary32) (Nat.cast_nonneg _)
      (Nat.cast_le.mpr hlow)
    have habove := FloatFormat.encode_mono (f := .binary32) (Nat.cast_nonneg _)
      (Nat.cast_le.mpr hhigh)
    rw [encode_units_binary32 hnext] at hbelow
    refine ⟨hstart, hbelow, ?_⟩
    by_cases hfits : e < 254
    · rwa [encode_units_binary32 (hlast hfits)] at habove
    · exact (encode_le_binary32 _).trans (hend hfits)

/-- The magnitude `f32tof16` returns for that of a finite float. -/
def f32tof16Magnitude (p : Nat) : Nat :=
  if p + 2 ^ 12 < 112 * 2 ^ 23 then 0
  else if p + 2 ^ 12 < 113 * 2 ^ 23 then 2 ^ 10
  else if 142 * 2 ^ 23 + 1023 * 2 ^ 13 ≤ p + 2 ^ 12 then 30 * 2 ^ 10 + 1023
  else (p + 2 ^ 12 - 112 * 2 ^ 23) / 2 ^ 13

/-- Half of `min16`. -/
theorem mul_min16_half :
    (Binary32.mul (asfloat ((127 - 14 : BitVec 32) <<< 23)) 0x3F000000).toNat = 112 * 2 ^ 23 := by
  decide +kernel

/-- A sign put before a magnitude of 15 bits. -/
theorem toNat_signed {s v : BitVec 32} {sign magnitude : Nat} (hs : s.toNat = sign * 2 ^ 15)
    (hv : v.toNat = magnitude) (hsign : sign < 2) (hmagnitude : magnitude < 2 ^ 15) :
    ((s ||| v).setWidth 16).toNat = sign * 2 ^ 15 + magnitude := by
  rw [BitVec.toNat_setWidth, BitVec.toNat_or, hs, hv, or_of_lt hmagnitude]
  omega

/-- The sign and the magnitude of the result. -/
theorem toNat_f32tof16 (hfinite : x.toNat % 2 ^ 31 < 255 * 2 ^ 23) :
    (f32tof16 x).toNat = x.toNat / 2 ^ 31 * 2 ^ 15 + f32tof16Magnitude (x.toNat % 2 ^ 31) := by
  have hsign := toNat_sign (x := x)
  have hmagnitude := toNat_magnitude (x := x)
  have hlt : x.toNat / 2 ^ 31 < 2 := by
    have hwidth : x.toNat < 2 ^ 32 := x.isLt
    omega
  have hspecial : x &&& 0x7FFFFFFF &&& expMaskF32 ≠ expMaskF32 := by
    have hexponent := toNat_exponent (x := x &&& 0x7FFFFFFF)
    rw [hmagnitude] at hexponent
    intro heq
    have hmask : (x &&& 0x7FFFFFFF &&& expMaskF32).toNat = 255 * 2 ^ 23 := by rw [heq]; rfl
    have hfield := hexponent.symm.trans hmask
    omega
  obtain ⟨r, hr, hhalf, hunits⟩ := exists_halfULP (v := x &&& 0x7FFFFFFF) (by rwa [hmagnitude])
  rw [hmagnitude] at hunits
  obtain ⟨hbound, hcases⟩ := add_half hfinite hr hunits
  have hsum : (Binary32.add (x &&& 0x7FFFFFFF)
      (Binary32.mul (asfloat (x &&& 0x7FFFFFFF &&& expMaskF32))
        (asfloat ((127 - 11 : BitVec 32) <<< 23)))).toNat =
      FloatFormat.binary32.add (x.toNat % 2 ^ 31) r := by
    unfold Binary32.add
    rw [hmagnitude, hhalf, BitVec.toNat_ofNat]
    exact Nat.mod_eq_of_lt (hbound.trans_lt (by decide))
  unfold f32tof16 f32tof16Magnitude
  dsimp only
  rw [if_neg hspecial]
  generalize Binary32.add (x &&& 0x7FFFFFFF) _ = v at hsum ⊢
  generalize FloatFormat.binary32.add (x.toNat % 2 ^ 31) r = t at *
  generalize x.toNat % 2 ^ 31 = p at *
  have hsmall : Binary32.lt v (Binary32.mul (asfloat ((127 - 14 : BitVec 32) <<< 23)) 0x3F000000) ↔
      p + 2 ^ 12 < 112 * 2 ^ 23 := by
    have hthreshold : t < 112 * 2 ^ 23 ↔ p + 2 ^ 12 < 112 * 2 ^ 23 := by omega
    unfold Binary32.lt
    rw [hsum, mul_min16_half, FloatFormat.lt_iff_of_le hbound (by decide), hthreshold]
  have hnormal : Binary32.lt v (asfloat ((127 - 14 : BitVec 32) <<< 23)) ↔
      p + 2 ^ 12 < 113 * 2 ^ 23 := by
    have hthreshold : t < 113 * 2 ^ 23 ↔ p + 2 ^ 12 < 113 * 2 ^ 23 := by omega
    unfold Binary32.lt
    rw [hsum, FloatFormat.lt_iff_of_le hbound (by decide), ← hthreshold]
    rfl
  have hlarge : Binary32.le (asfloat ((127 + 15 : BitVec 32) <<< 23 ||| 0x007FE000)) v ↔
      142 * 2 ^ 23 + 1023 * 2 ^ 13 ≤ p + 2 ^ 12 := by
    have hthreshold : 142 * 2 ^ 23 + 1023 * 2 ^ 13 ≤ t ↔
        142 * 2 ^ 23 + 1023 * 2 ^ 13 ≤ p + 2 ^ 12 := by omega
    unfold Binary32.le
    rw [hsum, FloatFormat.le_iff_of_le (by decide) hbound, ← hthreshold]
    rfl
  simp only [hsmall, hnormal, hlarge]
  split_ifs with h1 h2 h3
  · rw [BitVec.toNat_setWidth, hsign]
    omega
  · exact toNat_signed hsign rfl hlt (by decide)
  · rw [BitVec.or_comm]
    exact toNat_signed hsign rfl hlt (by decide)
  · have hshifted : ((v - (127 - 15 : BitVec 32) <<< 23) >>> (23 - 10)).toNat =
        (p + 2 ^ 12 - 112 * 2 ^ 23) / 2 ^ 13 := by
      rw [BitVec.toNat_ushiftRight, BitVec.toNat_sub, hsum, Nat.shiftRight_eq_div_pow]
      change (2 ^ 32 - 112 * 2 ^ 23 + t) % 2 ^ 32 / 2 ^ 13 = _
      omega
    rw [BitVec.or_comm]
    exact toNat_signed hsign hshifted hlt (by omega)

end F32tof16

end NnHal
