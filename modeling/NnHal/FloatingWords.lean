import Mathlib.Data.Nat.Log
import Mathlib.Tactic.Ring
import NnHal.Quantization

/-!
# Arithmetic on floating-point words

The bits below the sign of a floating-point word are its magnitude.  Magnitudes count the
numbers of a format in increasing order, and a number is a multiple of the least positive one,
its unit; past the largest finite number the count goes on to the infinity, as if the exponent
had one more value.  Sums and products are computed exactly in units and rounded to the nearest
magnitude, to the even one of two that are equally near.
-/

namespace Quantization

namespace FloatFormat

/-! ## Magnitudes -/

section Magnitudes

variable (f : FloatFormat)

/-- The bits below the sign. -/
def magnitude (word : Nat) : Nat := word % 2 ^ (f.fractionBits + f.exponentBits)

/-- The sign bit. -/
def negative (word : Nat) : Bool := word / 2 ^ (f.fractionBits + f.exponentBits) % 2 = 1

def word (negative : Bool) (magnitude : Nat) : Nat :=
  (if negative then 2 ^ (f.fractionBits + f.exponentBits) else 0) + magnitude

/-- The magnitude of the two infinities; NaNs have larger ones. -/
def infinity : Nat := (2 ^ f.exponentBits - 1) * 2 ^ f.fractionBits

def IsNaN (word : Nat) : Prop := f.infinity < f.magnitude word

def IsInfinite (word : Nat) : Prop := f.magnitude word = f.infinity

instance (word : Nat) : Decidable (f.IsNaN word) := inferInstanceAs (Decidable (_ < _))

instance (word : Nat) : Decidable (f.IsInfinite word) := inferInstanceAs (Decidable (_ = _))

/-- A magnitude in units. -/
def units (magnitude : Nat) : Nat :=
  let fraction := magnitude % 2 ^ f.fractionBits
  let exponent := magnitude / 2 ^ f.fractionBits
  if exponent = 0 then fraction else (2 ^ f.fractionBits + fraction) * 2 ^ (exponent - 1)

/-- The exponent of the unit. -/
def least : Int := 2 - 2 ^ (f.exponentBits - 1) - f.fractionBits

def signedUnits (word : Nat) : Int :=
  if f.negative word then -f.units (f.magnitude word) else f.units (f.magnitude word)

variable {f}

theorem exists_parts (p : Nat) :
    ∃ exponent fraction, fraction < 2 ^ f.fractionBits ∧
      p = exponent * 2 ^ f.fractionBits + fraction :=
  ⟨p / 2 ^ f.fractionBits, p % 2 ^ f.fractionBits, Nat.mod_lt _ (Nat.two_pow_pos _),
    (Nat.div_add_mod' p _).symm⟩

theorem parts_div {exponent fraction : Nat} (h : fraction < 2 ^ f.fractionBits) :
    (exponent * 2 ^ f.fractionBits + fraction) / 2 ^ f.fractionBits = exponent := by
  rw [Nat.add_comm, Nat.add_mul_div_right _ _ (Nat.two_pow_pos _), Nat.div_eq_of_lt h,
    Nat.zero_add]

theorem units_parts {exponent fraction : Nat} (h : fraction < 2 ^ f.fractionBits) :
    f.units (exponent * 2 ^ f.fractionBits + fraction) =
      if exponent = 0 then fraction else (2 ^ f.fractionBits + fraction) * 2 ^ (exponent - 1) := by
  have hmod : (exponent * 2 ^ f.fractionBits + fraction) % 2 ^ f.fractionBits = fraction := by
    rw [Nat.add_comm, Nat.add_mul_mod_self_right, Nat.mod_eq_of_lt h]
  unfold units
  rw [parts_div h, hmod]

/-- The distance of two neighbours. -/
theorem units_succ (p : Nat) : f.units (p + 1) = f.units p + 2 ^ (p / 2 ^ f.fractionBits - 1) := by
  obtain ⟨exponent, fraction, hfraction, rfl⟩ := exists_parts (f := f) p
  rw [parts_div hfraction, units_parts hfraction]
  by_cases hnext : fraction + 1 < 2 ^ f.fractionBits
  · rw [Nat.add_assoc, units_parts hnext]
    rcases Nat.eq_zero_or_pos exponent with rfl | hexponent
    · rfl
    · rw [if_neg hexponent.ne', if_neg hexponent.ne', ← Nat.add_assoc, Nat.add_mul, Nat.one_mul]
  · -- the last fraction is followed by the next exponent
    have hlast : exponent * 2 ^ f.fractionBits + fraction + 1 =
        (exponent + 1) * 2 ^ f.fractionBits + 0 := by
      rw [Nat.add_mul]
      omega
    have hcount : 2 ^ f.fractionBits = fraction + 1 := by omega
    rw [hlast, units_parts (Nat.two_pow_pos _), if_neg (Nat.succ_ne_zero exponent)]
    rcases exponent with _ | e
    · rw [if_pos rfl, hcount]
      simp
    · rw [if_neg (Nat.succ_ne_zero e), hcount, Nat.add_sub_cancel, Nat.add_sub_cancel, Nat.pow_succ]
      ring

theorem units_strictMono : StrictMono f.units := by
  apply strictMono_nat_of_lt_succ
  intro p
  rw [units_succ]
  exact Nat.lt_add_of_pos_right (Nat.two_pow_pos _)

/-! ### Words -/

variable {negative : Bool} {magnitude word : Nat}

theorem infinity_lt : f.infinity < 2 ^ (f.fractionBits + f.exponentBits) := by
  have hexponents : 0 < 2 ^ f.exponentBits := Nat.two_pow_pos _
  rw [Nat.pow_add, Nat.mul_comm]
  exact Nat.mul_lt_mul_of_pos_right (by omega) (Nat.two_pow_pos _)

theorem magnitude_word (h : magnitude < 2 ^ (f.fractionBits + f.exponentBits)) :
    f.magnitude (f.word negative magnitude) = magnitude := by
  unfold FloatFormat.magnitude FloatFormat.word
  cases negative
  · simp [Nat.mod_eq_of_lt h]
  · simp [Nat.mod_eq_of_lt h]

theorem negative_word (h : magnitude < 2 ^ (f.fractionBits + f.exponentBits)) :
    f.negative (f.word negative magnitude) = negative := by
  unfold FloatFormat.negative FloatFormat.word
  cases negative
  · simp [Nat.div_eq_of_lt h]
  · simp [Nat.add_div_left _ (Nat.two_pow_pos _), Nat.div_eq_of_lt h]

/-- The number of a finite word, in units. -/
theorem value_eq (h : f.Finite word) : f.value word = f.signedUnits word * 2 ^ f.least := by
  have hfraction : f.magnitude word % 2 ^ f.fractionBits = word % 2 ^ f.fractionBits :=
    Nat.mod_mod_of_dvd word (Nat.pow_dvd_pow 2 (Nat.le_add_right _ _))
  have hexponent : f.magnitude word / 2 ^ f.fractionBits =
      word / 2 ^ f.fractionBits % 2 ^ f.exponentBits := by
    unfold FloatFormat.magnitude
    rw [Nat.pow_add, Nat.mod_mul_right_div_self]
  have hmagnitude : (f.units (f.magnitude word) : Rat) * 2 ^ f.least =
      if word / 2 ^ f.fractionBits % 2 ^ f.exponentBits = 0 then
        ((word % 2 ^ f.fractionBits : Nat) : Rat) * 2 ^ f.least
      else (2 ^ f.fractionBits + (word % 2 ^ f.fractionBits : Nat)) *
        2 ^ (f.least + (word / 2 ^ f.fractionBits % 2 ^ f.exponentBits : Nat) - 1) := by
    unfold units
    rw [hfraction, hexponent]
    dsimp only
    by_cases hzero : word / 2 ^ f.fractionBits % 2 ^ f.exponentBits = 0
    · rw [if_pos hzero, if_pos hzero]
    · rw [if_neg hzero, if_neg hzero]
      have hpower : f.least + (word / 2 ^ f.fractionBits % 2 ^ f.exponentBits : Nat) - 1 =
          (word / 2 ^ f.fractionBits % 2 ^ f.exponentBits - 1 : Nat) + f.least := by
        omega
      rw [hpower, zpow_add₀ two_ne_zero, zpow_natCast]
      push_cast
      ring
  unfold Finite at h
  unfold value signedUnits FloatFormat.negative
  simp only [if_neg h, decide_eq_true_eq]
  unfold least at hmagnitude
  rw [← hmagnitude]
  unfold least
  split
  · push_cast
    ring
  · rfl

theorem finite_iff : f.Finite word ↔ f.magnitude word < f.infinity := by
  have hexponent : f.magnitude word / 2 ^ f.fractionBits =
      word / 2 ^ f.fractionBits % 2 ^ f.exponentBits := by
    unfold FloatFormat.magnitude
    rw [Nat.pow_add, Nat.mod_mul_right_div_self]
  have hpos : 0 < 2 ^ f.exponentBits := Nat.two_pow_pos _
  have hlt : f.magnitude word / 2 ^ f.fractionBits < 2 ^ f.exponentBits := by
    rw [hexponent]
    exact Nat.mod_lt _ hpos
  unfold Finite infinity
  rw [← hexponent, ← Nat.div_lt_iff_lt_mul (Nat.two_pow_pos _)]
  omega

/-- The size of the number of a finite word. -/
theorem abs_value (h : f.Finite word) :
    |f.value word| = f.units (f.magnitude word) * 2 ^ f.least := by
  have hscale : (0 : Rat) < 2 ^ f.least := zpow_pos two_pos _
  rw [value_eq h, abs_mul, abs_of_pos hscale]
  unfold signedUnits
  split
  · rw [Int.cast_neg, abs_neg, Int.cast_natCast, abs_of_nonneg (Nat.cast_nonneg _)]
  · rw [Int.cast_natCast, abs_of_nonneg (Nat.cast_nonneg _)]

end Magnitudes

/-! ## Rounding -/

section Encoding

variable (f : FloatFormat)

/-- The exponent that leaves the bits of a fraction before the point. -/
def shift (q : Rat) : Nat := Nat.log2 ⌊q⌋.toNat - f.fractionBits

/-- The magnitude nearest to a number of units. -/
def encode (q : Rat) : Nat :=
  min f.infinity (f.shift q * 2 ^ f.fractionBits + (roundHalfEven (q / 2 ^ f.shift q)).toNat)

variable {f} {p q : Rat}

/-- The rounded fraction fits one binade, its end included. -/
theorem roundHalfEven_shift (hq : 0 ≤ q) :
    0 ≤ roundHalfEven (q / 2 ^ f.shift q) ∧
      roundHalfEven (q / 2 ^ f.shift q) ≤ 2 ^ (f.fractionBits + 1) ∧
      (f.shift q ≠ 0 → 2 ^ f.fractionBits ≤ roundHalfEven (q / 2 ^ f.shift q)) := by
  have hfloor : (0 : Int) ≤ ⌊q⌋ := Int.floor_nonneg.mpr hq
  have hcast : ((⌊q⌋.toNat : Nat) : Rat) = ⌊q⌋ := by
    exact_mod_cast Int.toNat_of_nonneg hfloor
  have hpos : (0 : Rat) < 2 ^ f.shift q := by positivity
  have hround : ∀ {n : Int}, (n : Rat) ≤ q / 2 ^ f.shift q →
      n ≤ roundHalfEven (q / 2 ^ f.shift q) := by
    intro n hn
    have hmono := roundHalfEven_mono hn
    rwa [roundHalfEven_intCast] at hmono
  refine ⟨hround (by push_cast; positivity), ?_, fun hshift => hround ?_⟩
  · have hlog : ⌊q⌋.toNat < 2 ^ (Nat.log2 ⌊q⌋.toNat + 1) := Nat.lt_log2_self
    have hwide : ⌊q⌋.toNat + 1 ≤ 2 ^ (f.fractionBits + 1) * 2 ^ f.shift q := by
      rw [← Nat.pow_add]
      exact Nat.le_trans hlog (Nat.pow_le_pow_right (by omega) (by unfold shift; omega))
    have hlt : q / 2 ^ f.shift q ≤ ((2 ^ (f.fractionBits + 1) : Int) : Rat) := by
      rw [div_le_iff₀ hpos]
      have hceil : q ≤ ⌊q⌋ + 1 := (Int.lt_floor_add_one q).le
      have hle : ((⌊q⌋.toNat + 1 : Nat) : Rat) ≤
          ((2 ^ (f.fractionBits + 1) * 2 ^ f.shift q : Nat) : Rat) := Nat.cast_le.mpr hwide
      push_cast [hcast] at hle ⊢
      exact hceil.trans hle
    have hmono := roundHalfEven_mono hlt
    rwa [roundHalfEven_intCast] at hmono
  · have hnonzero : ⌊q⌋.toNat ≠ 0 := by
      intro hzero
      exact hshift (by simp [shift, hzero])
    have hwide : 2 ^ f.fractionBits * 2 ^ f.shift q ≤ ⌊q⌋.toNat := by
      rw [← Nat.pow_add]
      exact Nat.le_trans (Nat.pow_le_pow_right (by omega) (by unfold shift at hshift ⊢; omega))
        (Nat.log2_self_le hnonzero)
    rw [le_div_iff₀ hpos]
    have hle : ((2 ^ f.fractionBits * 2 ^ f.shift q : Nat) : Rat) ≤ (⌊q⌋.toNat : Nat) :=
      Nat.cast_le.mpr hwide
    push_cast [hcast] at hle ⊢
    exact hle.trans (Int.floor_le q)

theorem encode_mono (hp : 0 ≤ p) (h : p ≤ q) : f.encode p ≤ f.encode q := by
  have hfloor : ⌊p⌋.toNat ≤ ⌊q⌋.toNat := Int.toNat_le_toNat (Int.floor_le_floor h)
  have hshift : f.shift p ≤ f.shift q := by
    unfold shift
    rw [Nat.log2_eq_log_two, Nat.log2_eq_log_two]
    exact Nat.sub_le_sub_right (Nat.log_mono_right hfloor) _
  apply min_le_min (Nat.le_refl _)
  rcases hshift.eq_or_lt with heq | hlt
  · rw [heq]
    have hround : roundHalfEven (p / 2 ^ f.shift q) ≤ roundHalfEven (q / 2 ^ f.shift q) :=
      roundHalfEven_mono (by gcongr)
    exact Nat.add_le_add_left (Int.toNat_le_toNat hround) _
  · -- in a later binade the least fraction is above all of an earlier one
    obtain ⟨-, hhigh, -⟩ := roundHalfEven_shift (f := f) hp
    obtain ⟨-, -, hlow⟩ := roundHalfEven_shift (f := f) (hp.trans h)
    have hlow' := hlow (by omega)
    have hstep : (f.shift p + 1) * 2 ^ f.fractionBits ≤ f.shift q * 2 ^ f.fractionBits :=
      Nat.mul_le_mul_right _ hlt
    rw [Nat.add_mul, Nat.one_mul] at hstep
    rw [pow_succ] at hhigh
    have hcast : ((2 ^ f.fractionBits : Nat) : Int) = 2 ^ f.fractionBits := by push_cast; rfl
    have hpos : 0 < 2 ^ f.fractionBits := Nat.two_pow_pos _
    omega

theorem shift_units {exponent fraction : Nat} (h : fraction < 2 ^ f.fractionBits) :
    f.shift (f.units (exponent * 2 ^ f.fractionBits + fraction) : Nat) = exponent - 1 := by
  have hfloor : ∀ n : Nat, ⌊(n : Rat)⌋.toNat = n := by
    intro n
    rw [Int.floor_natCast, Int.toNat_natCast]
  unfold shift
  rw [hfloor, units_parts h]
  rcases exponent with _ | e
  · rw [if_pos rfl]
    rcases Nat.eq_zero_or_pos fraction with rfl | hpos
    · rw [Nat.log2_zero, Nat.zero_sub]
    · have hlog := (Nat.log2_lt hpos.ne').mpr h
      omega
  · have hnonzero : (2 ^ f.fractionBits + fraction) * 2 ^ e ≠ 0 :=
      (Nat.mul_pos (by omega) (Nat.two_pow_pos e)).ne'
    have hlog : ((2 ^ f.fractionBits + fraction) * 2 ^ e).log2 = f.fractionBits + e := by
      rw [Nat.log2_eq_iff hnonzero]
      constructor
      · rw [Nat.pow_add]
        exact Nat.mul_le_mul_right _ (Nat.le_add_right _ _)
      · rw [Nat.add_right_comm, Nat.pow_add, Nat.pow_succ]
        exact Nat.mul_lt_mul_of_pos_right (by omega) (Nat.two_pow_pos e)
    rw [if_neg (Nat.succ_ne_zero e), Nat.add_sub_cancel, hlog, Nat.add_sub_cancel_left]

/-- The numbers of the format are not rounded. -/
theorem encode_units {magnitude : Nat} (h : magnitude ≤ f.infinity) :
    f.encode (f.units magnitude) = magnitude := by
  obtain ⟨exponent, fraction, hfraction, rfl⟩ := exists_parts (f := f) magnitude
  have hround : (exponent - 1) * 2 ^ f.fractionBits +
      (roundHalfEven ((f.units (exponent * 2 ^ f.fractionBits + fraction) : Nat) /
        2 ^ (exponent - 1) : Rat)).toNat = exponent * 2 ^ f.fractionBits + fraction := by
    rw [units_parts hfraction]
    rcases exponent with _ | e
    · rw [if_pos rfl, Nat.zero_sub, pow_zero, div_one, ← Int.cast_natCast, roundHalfEven_intCast]
      simp
    · have hscale : (2 : Rat) ^ e ≠ 0 := by positivity
      rw [if_neg (Nat.succ_ne_zero e), Nat.add_sub_cancel, Nat.cast_mul, Nat.cast_pow,
        Nat.cast_ofNat, mul_div_cancel_right₀ _ hscale, ← Int.cast_natCast, roundHalfEven_intCast,
        Int.toNat_natCast, Nat.add_mul]
      omega
  unfold encode
  rw [shift_units hfraction, hround, Nat.min_eq_right h]

end Encoding

/-! ## Arithmetic -/

section Arithmetic

variable (f : FloatFormat)

/-- The NaN an invalid operation returns; the sign and the payload of one are not fixed. -/
def nan : Nat := f.infinity + 2 ^ (f.fractionBits - 1)

/-- The sum.  A sum of zero is positive unless both numbers are negative. -/
def add (x y : Nat) : Nat :=
  if f.IsNaN x ∨ f.IsNaN y then f.nan
  else if f.IsInfinite x then
    if f.IsInfinite y ∧ f.negative x ≠ f.negative y then f.nan else x
  else if f.IsInfinite y then y
  else
    let sum := f.signedUnits x + f.signedUnits y
    f.word (if sum = 0 then f.negative x && f.negative y else decide (sum < 0))
      (f.encode sum.natAbs)

/-- The product. -/
def mul (x y : Nat) : Nat :=
  let negative := f.negative x != f.negative y
  if f.IsNaN x ∨ f.IsNaN y then f.nan
  else if f.IsInfinite x ∨ f.IsInfinite y then
    if f.magnitude x = 0 ∨ f.magnitude y = 0 then f.nan else f.word negative f.infinity
  else
    f.word negative
      (f.encode (f.units (f.magnitude x) * f.units (f.magnitude y) * 2 ^ f.least))

/-- No NaN is less than a number. -/
def lt (x y : Nat) : Prop := ¬ f.IsNaN x ∧ ¬ f.IsNaN y ∧ f.signedUnits x < f.signedUnits y

def le (x y : Nat) : Prop := ¬ f.IsNaN x ∧ ¬ f.IsNaN y ∧ f.signedUnits x ≤ f.signedUnits y

instance (x y : Nat) : Decidable (f.lt x y) := inferInstanceAs (Decidable (_ ∧ _ ∧ _))

instance (x y : Nat) : Decidable (f.le x y) := inferInstanceAs (Decidable (_ ∧ _ ∧ _))

variable {f} {x y p q r : Nat} {s t : Bool}

theorem encode_le (q : Rat) : f.encode q ≤ f.infinity := Nat.min_le_left _ _

@[simp]
theorem units_zero : f.units 0 = 0 := by
  unfold units
  simp

theorem magnitude_of_le (h : x ≤ f.infinity) : f.magnitude x = x :=
  Nat.mod_eq_of_lt (h.trans_lt infinity_lt)

theorem negative_of_le (h : x ≤ f.infinity) : f.negative x = false := by
  unfold negative
  rw [Nat.div_eq_of_lt (h.trans_lt infinity_lt)]
  rfl

theorem not_isNaN_of_le (h : x ≤ f.infinity) : ¬ f.IsNaN x := by
  unfold IsNaN
  rw [magnitude_of_le h]
  omega

theorem signedUnits_of_le (h : x ≤ f.infinity) : f.signedUnits x = f.units x := by
  unfold signedUnits
  rw [negative_of_le h, magnitude_of_le h]
  rfl

theorem magnitude_word_of_le (h : p ≤ f.infinity) : f.magnitude (f.word s p) = p :=
  magnitude_word (h.trans_lt infinity_lt)

theorem negative_word_of_le (h : p ≤ f.infinity) : f.negative (f.word s p) = s :=
  negative_word (h.trans_lt infinity_lt)

theorem not_isNaN_word (h : p ≤ f.infinity) : ¬ f.IsNaN (f.word s p) := by
  unfold IsNaN
  rw [magnitude_word_of_le h]
  omega

theorem isInfinite_word (h : p ≤ f.infinity) : f.IsInfinite (f.word s p) ↔ p = f.infinity := by
  unfold IsInfinite
  rw [magnitude_word_of_le h]

theorem signedUnits_word (h : p ≤ f.infinity) :
    f.signedUnits (f.word s p) = if s then -(f.units p : Int) else f.units p := by
  unfold signedUnits
  rw [negative_word_of_le h, magnitude_word_of_le h]

/-- Numbers without a sign are added in units. -/
theorem add_of_lt (hx : x < f.infinity) (hy : y < f.infinity) :
    f.add x y = f.encode (f.units x + f.units y : Nat) := by
  have hsum : (f.signedUnits x + f.signedUnits y).natAbs = f.units x + f.units y := by
    rw [signedUnits_of_le hx.le, signedUnits_of_le hy.le]
    omega
  have hpositive : ¬ f.signedUnits x + f.signedUnits y < 0 := by
    rw [signedUnits_of_le hx.le, signedUnits_of_le hy.le]
    omega
  have hinfinite : ∀ {z : Nat}, z < f.infinity → ¬ f.IsInfinite z := by
    intro z hz
    unfold IsInfinite
    rw [magnitude_of_le hz.le]
    omega
  unfold add
  rw [if_neg (not_or_intro (not_isNaN_of_le hx.le) (not_isNaN_of_le hy.le)),
    if_neg (hinfinite hx), if_neg (hinfinite hy)]
  dsimp only
  rw [hsum, negative_of_le hx.le]
  simp [hpositive, word]

/-- A product that is a number of the format. -/
theorem mul_word (hp : p < f.infinity) (hq : q < f.infinity) (hr : r ≤ f.infinity)
    (hproduct : (f.units p * f.units q : Rat) * 2 ^ f.least = f.units r) :
    f.mul (f.word s p) (f.word t q) = f.word (s != t) r := by
  have hp' : ¬ f.IsInfinite (f.word s p) := fun h => hp.ne ((isInfinite_word hp.le).mp h)
  have hq' : ¬ f.IsInfinite (f.word t q) := fun h => hq.ne ((isInfinite_word hq.le).mp h)
  unfold mul
  rw [if_neg (not_or_intro (not_isNaN_word hp.le) (not_isNaN_word hq.le)),
    if_neg (not_or_intro hp' hq'), magnitude_word_of_le hp.le, magnitude_word_of_le hq.le,
    negative_word_of_le hp.le, negative_word_of_le hq.le, hproduct, encode_units hr]

theorem word_false : f.word false p = p := Nat.zero_add p

theorem mul_of_lt (hp : p < f.infinity) (hq : q < f.infinity) (hr : r ≤ f.infinity)
    (hproduct : (f.units p * f.units q : Rat) * 2 ^ f.least = f.units r) : f.mul p q = r := by
  have hmul := mul_word (s := false) (t := false) hp hq hr hproduct
  rwa [word_false, word_false, bne_self_eq_false, word_false] at hmul

/-- Multiplying by one changes no number. -/
theorem mul_one_word (hq : q < f.infinity) (hone : (f.units q : Rat) * 2 ^ f.least = 1)
    (hp : p ≤ f.infinity) : f.mul (f.word s p) q = f.word s p := by
  rcases hp.lt_or_eq with hfinite | rfl
  · have hproduct : (f.units p * f.units q : Rat) * 2 ^ f.least = f.units p := by
      rw [mul_assoc, hone, mul_one]
    have hmul := mul_word (s := s) (t := false) hfinite hq hp hproduct
    rwa [word_false, Bool.bne_false] at hmul
  · have hinfinite : f.IsInfinite (f.word s f.infinity) := (isInfinite_word hp).mpr rfl
    have hpositive : f.infinity ≠ 0 := by omega
    have hnonzero : q ≠ 0 := by
      intro heq
      subst heq
      rw [units_zero, Nat.cast_zero, zero_mul] at hone
      exact zero_ne_one hone
    unfold mul
    rw [if_neg (not_or_intro (not_isNaN_word hp) (not_isNaN_of_le hq.le)),
      if_pos (Or.inl hinfinite), magnitude_word_of_le hp, magnitude_of_le hq.le,
      if_neg (not_or_intro hpositive hnonzero), negative_word_of_le hp, negative_of_le hq.le,
      Bool.bne_false]

/-- Adding a positive zero changes no number but the negative zero. -/
theorem add_zero_word (hpositive : 0 < f.infinity) (hp : p ≤ f.infinity) :
    f.add (f.word s p) 0 = if p = 0 then 0 else f.word s p := by
  have hzero : ¬ f.IsInfinite 0 := by
    unfold IsInfinite
    rw [magnitude_of_le (Nat.zero_le _)]
    omega
  unfold add
  rw [if_neg (not_or_intro (not_isNaN_word hp) (not_isNaN_of_le (Nat.zero_le _)))]
  by_cases hinfinite : p = f.infinity
  · have hnonzero : ¬ p = 0 := by omega
    rw [if_pos ((isInfinite_word hp).mpr hinfinite), if_neg (fun h => hzero h.1), if_neg hnonzero]
  · rw [if_neg (fun h => hinfinite ((isInfinite_word hp).mp h)), if_neg hzero]
    dsimp only
    rw [signedUnits_of_le (Nat.zero_le _), units_zero, signedUnits_word hp,
      negative_word_of_le hp, negative_of_le (Nat.zero_le _), Bool.and_false]
    have hunits : f.units p = 0 ↔ p = 0 := by
      have hinjective := (units_strictMono (f := f)).injective.eq_iff (a := p) (b := 0)
      rwa [units_zero] at hinjective
    by_cases hempty : p = 0
    · subst hempty
      rw [if_pos rfl]
      have hencode : f.encode ((0 : Nat) : Rat) = 0 := by
        have hexact := encode_units (Nat.zero_le f.infinity)
        rwa [units_zero] at hexact
      cases s <;> simpa [word] using hencode
    · have hnonzero : ¬ f.units p = 0 := fun h => hempty (hunits.mp h)
      have hencode := encode_units hp
      rw [if_neg hempty]
      have hsum : ∀ u : Nat, decide ((u : Int) < 0) = false := by
        intro u
        simp
      cases s
      · simp [hnonzero, hencode, hsum]
      · simp [hnonzero, hencode, Nat.pos_of_ne_zero hnonzero]

theorem lt_iff_of_le (hx : x ≤ f.infinity) (hy : y ≤ f.infinity) : f.lt x y ↔ x < y := by
  unfold lt
  rw [signedUnits_of_le hx, signedUnits_of_le hy, Nat.cast_lt, units_strictMono.lt_iff_lt]
  exact ⟨fun h => h.2.2, fun h => ⟨not_isNaN_of_le hx, not_isNaN_of_le hy, h⟩⟩

theorem le_iff_of_le (hx : x ≤ f.infinity) (hy : y ≤ f.infinity) : f.le x y ↔ x ≤ y := by
  unfold le
  rw [signedUnits_of_le hx, signedUnits_of_le hy, Nat.cast_le, units_strictMono.le_iff_le]
  exact ⟨fun h => h.2.2, fun h => ⟨not_isNaN_of_le hx, not_isNaN_of_le hy, h⟩⟩

/-- A magnitude with a sign. -/
def signed (s : Bool) (p : Nat) : Int := if s then -p else p

/-- Words are compared by their signed magnitudes. -/
theorem le_word (hp : p ≤ f.infinity) (hq : q ≤ f.infinity) :
    f.le (f.word s p) (f.word t q) ↔ signed s p ≤ signed t q := by
  have hle : ∀ a b : Nat, f.units a ≤ f.units b ↔ a ≤ b := fun a b =>
    units_strictMono.le_iff_le
  have hzero : ∀ a : Nat, f.units a = 0 ↔ a = 0 := by
    intro a
    have hinjective := (units_strictMono (f := f)).injective.eq_iff (a := a) (b := 0)
    rwa [units_zero] at hinjective
  have hpq := hle p q
  have hqp := hle q p
  have hp0 := hzero p
  have hq0 := hzero q
  have hnan : f.le (f.word s p) (f.word t q) ↔
      f.signedUnits (f.word s p) ≤ f.signedUnits (f.word t q) :=
    ⟨fun h => h.2.2, fun h => ⟨not_isNaN_word hp, not_isNaN_word hq, h⟩⟩
  rw [hnan, signedUnits_word hp, signedUnits_word hq]
  unfold signed
  cases s <;> cases t <;> simp only [Bool.false_eq_true, if_false, if_true] <;> omega

end Arithmetic

/-! ## The nearest number -/

/-- Of two neighbours around a number the nearer is the nearest of an increasing sequence; of
two that are equally near the upper one is. -/
theorem nearest_of_between {U : Nat → Nat} (hU : StrictMono U) {a u : Nat} (hlow : U a ≤ u)
    (hhigh : u < U (a + 1)) (k : Nat) :
    let nearest := if 2 * u < U a + U (a + 1) then a else a + 1
    ((u : Int) - U nearest).natAbs ≤ ((u : Int) - U k).natAbs ∧
      (((u : Int) - U nearest).natAbs = ((u : Int) - U k).natAbs → k ≤ nearest) := by
  have hbelow : k < a → U k < U a := fun h => hU h
  have habove : a + 1 < k → U (a + 1) < U k := fun h => hU h
  rcases Nat.lt_trichotomy k a with hk | rfl | hk
  · have hlt := hbelow hk
    dsimp only
    split <;> omega
  · dsimp only
    split <;> omega
  · rcases Nat.eq_or_lt_of_le (Nat.succ_le_of_lt hk) with rfl | hlt
    · rw [Nat.succ_eq_add_one]
      dsimp only
      split <;> omega
    · have hlt' := habove hlt
      dsimp only
      split <;> omega


end FloatFormat

end Quantization
