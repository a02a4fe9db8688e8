import NnHal.HalfRounding

/-!
# What `f32tof16` keeps

`f32tof16` shifts the exponent of an infinity or a NaN into the place of the sign, and a
`short` keeps it there: positive infinity and positive NaNs come out negative.  Everywhere else
the sign and the order are kept, and so are the zeros, normal numbers and infinities `f16tof32`
returns.  The arrays lose one more word, since adding a bias of zero makes the zeros positive.
-/

namespace NnHal

open Quantization

/-! ## Infinities and NaNs -/

section Special

variable {x : BitVec 32}

/-- The shifted exponent covers the sign. -/
theorem toNat_or_exponent {s w e : BitVec 32} {sign fraction : Nat}
    (hs : s.toNat = sign * 2 ^ 15) (hsign : sign < 2) (hw : w.toNat = 255 * 2 ^ 10 + fraction)
    (hfraction : fraction < 2 ^ 10) (he : e.toNat < 2 ^ 10) :
    ((s ||| w ||| e).setWidth 16).toNat =
      2 ^ 15 + (31 * 2 ^ 10 + (fraction ||| e.toNat)) := by
  have hbits : s.toNat ||| (255 * 2 ^ 10 + fraction) = 255 * 2 ^ 10 + fraction := by
    have hcovered : sign * 2 ^ 15 ||| 255 * 2 ^ 10 = 255 * 2 ^ 10 := by
      obtain rfl | rfl : sign = 0 ∨ sign = 1 := by omega
      · rfl
      · rfl
    rw [hs, ← or_of_lt hfraction, ← Nat.or_assoc, hcovered]
  have hlow : fraction ||| e.toNat < 2 ^ 10 := Nat.or_lt_two_pow hfraction he
  rw [BitVec.toNat_setWidth, BitVec.toNat_or, BitVec.toNat_or, hw, hbits, ← or_of_lt hfraction,
    Nat.or_assoc, or_of_lt hlow]
  omega

/-- The sign bit is set whatever the sign. -/
theorem toNat_f32tof16_special (hspecial : 255 * 2 ^ 23 ≤ x.toNat % 2 ^ 31) :
    ∃ m < 2 ^ 15, (f32tof16 x).toNat = 2 ^ 15 + m ∧
      (m = 31 * 2 ^ 10 ↔ x.toNat % 2 ^ 31 = 255 * 2 ^ 23) ∧ 31 * 2 ^ 10 ≤ m := by
  have hsign := toNat_sign (x := x)
  have hmagnitude := toNat_magnitude (x := x)
  have hfield : x &&& 0x7FFFFFFF &&& expMaskF32 = expMaskF32 := by
    have hexponent := toNat_exponent (x := x &&& 0x7FFFFFFF)
    rw [hmagnitude] at hexponent
    rw [← BitVec.toNat_inj]
    refine hexponent.trans ?_
    change _ = 255 * 2 ^ 23
    omega
  have hnan : x &&& 0x7FFFFFFF &&& 0x007FFFFF ≠ 0 ↔ x.toNat % 2 ^ 31 ≠ 255 * 2 ^ 23 := by
    have hfraction := toNat_fraction (x := x &&& 0x7FFFFFFF)
    rw [hmagnitude] at hfraction
    rw [ne_eq, ← BitVec.toNat_inj, hfraction]
    change ¬ _ = 0 ↔ _
    omega
  have hlt : x.toNat / 2 ^ 31 < 2 := by
    have hwidth : x.toNat < 2 ^ 32 := x.isLt
    omega
  have hshifted : ((x &&& 0x7FFFFFFF) >>> (23 - 10)).toNat =
      255 * 2 ^ 10 + x.toNat % 2 ^ 23 / 2 ^ 13 := by
    rw [BitVec.toNat_ushiftRight, hmagnitude, Nat.shiftRight_eq_div_pow]
    change _ / 2 ^ 13 = _
    omega
  have hfraction : x.toNat % 2 ^ 23 / 2 ^ 13 < 2 ^ 10 := by omega
  unfold f32tof16
  dsimp only
  rw [if_pos hfield]
  simp only [hnan]
  split_ifs with hcase
  · have hquiet : 512 ≤ x.toNat % 2 ^ 23 / 2 ^ 13 ||| 512 := Nat.right_le_or
    have hbound : x.toNat % 2 ^ 23 / 2 ^ 13 ||| 512 < 2 ^ 10 :=
      Nat.or_lt_two_pow hfraction (by decide)
    exact ⟨31 * 2 ^ 10 + (x.toNat % 2 ^ 23 / 2 ^ 13 ||| 512), by omega,
      toNat_or_exponent hsign hlt hshifted hfraction (by decide), by omega, by omega⟩
  · have hplain := toNat_or_exponent (e := 0#32) hsign hlt hshifted hfraction (by decide)
    rw [BitVec.or_zero] at hplain
    refine ⟨31 * 2 ^ 10, by decide, hplain.trans ?_, by omega, Nat.le_refl _⟩
    have hzero : x.toNat % 2 ^ 23 / 2 ^ 13 = 0 := by omega
    rw [hzero]
    rfl

/-- The sign and the magnitude of every result. -/
theorem exists_f32tof16 (x : BitVec 32) :
    ∃ sign m, sign < 2 ∧ m < 2 ^ 15 ∧ (f32tof16 x).toNat = sign * 2 ^ 15 + m ∧
      (x.toNat % 2 ^ 31 < 255 * 2 ^ 23 → sign = x.toNat / 2 ^ 31 ∧
        m = f32tof16Magnitude (x.toNat % 2 ^ 31)) ∧
      (255 * 2 ^ 23 ≤ x.toNat % 2 ^ 31 → sign = 1 ∧
        (m = 31 * 2 ^ 10 ↔ x.toNat % 2 ^ 31 = 255 * 2 ^ 23) ∧ 31 * 2 ^ 10 ≤ m) := by
  have hwidth : x.toNat < 2 ^ 32 := x.isLt
  rcases Nat.lt_or_ge (x.toNat % 2 ^ 31) (255 * 2 ^ 23) with hlt | hge
  · have hbound : f32tof16Magnitude (x.toNat % 2 ^ 31) < 2 ^ 15 := by
      unfold f32tof16Magnitude
      split_ifs <;> omega
    exact ⟨x.toNat / 2 ^ 31, _, by omega, hbound, toNat_f32tof16 hlt, fun _ => ⟨rfl, rfl⟩,
      fun hge => absurd hlt (by omega)⟩
  · obtain ⟨m, hm, hbits, hspecial⟩ := toNat_f32tof16_special hge
    exact ⟨1, m, by decide, hm, by rw [hbits, Nat.one_mul], fun hlt => absurd hlt (by omega),
      fun _ => ⟨rfl, hspecial⟩⟩

/-- The sign, the infinities and the NaNs of a float are those of a half. -/
structure KeepsClass (x : BitVec 32) (h : BitVec 16) : Prop where
  sign : FloatFormat.binary16.negative h.toNat = FloatFormat.binary32.negative x.toNat
  infinite : FloatFormat.binary32.IsInfinite x.toNat → FloatFormat.binary16.IsInfinite h.toNat
  nan : FloatFormat.binary32.IsNaN x.toNat → FloatFormat.binary16.IsNaN h.toNat

/-- Positive infinity and positive NaNs are all that is lost. -/
theorem keepsClass_f32tof16_iff (x : BitVec 32) :
    KeepsClass x (f32tof16 x) ↔
      FloatFormat.binary32.Finite x.toNat ∨ FloatFormat.binary32.negative x.toNat = true := by
  have hwidth : x.toNat < 2 ^ 32 := x.isLt
  have hfinite : FloatFormat.binary32.Finite x.toNat ↔ x.toNat % 2 ^ 31 < 255 * 2 ^ 23 :=
    FloatFormat.finite_iff
  have hnegative : FloatFormat.binary32.negative x.toNat = decide (x.toNat / 2 ^ 31 % 2 = 1) := rfl
  obtain ⟨sign, m, hsign, hm, hbits, hplain, hspecial⟩ := exists_f32tof16 x
  obtain ⟨hneg, hmagnitude⟩ := half_fields hbits hsign hm
  have hinfinite : FloatFormat.binary16.IsInfinite (f32tof16 x).toNat ↔ m = 31 * 2 ^ 10 := by
    unfold FloatFormat.IsInfinite
    rw [hmagnitude]
    rfl
  have hnan : FloatFormat.binary16.IsNaN (f32tof16 x).toNat ↔ 31 * 2 ^ 10 < m := by
    unfold FloatFormat.IsNaN
    rw [hmagnitude]
    rfl
  rw [hfinite, hnegative, decide_eq_true_eq]
  constructor
  · intro hkeeps
    have hsame := hkeeps.sign
    rw [hneg, hnegative, decide_eq_decide] at hsame
    by_cases hlt : x.toNat % 2 ^ 31 < 255 * 2 ^ 23
    · exact .inl hlt
    · obtain ⟨hone, -⟩ := hspecial (by omega)
      exact .inr (hsame.mp hone)
  · intro hcondition
    constructor
    · rw [hneg, hnegative, decide_eq_decide]
      rcases Nat.lt_or_ge (x.toNat % 2 ^ 31) (255 * 2 ^ 23) with hlt | hge
      · obtain ⟨hsame, -⟩ := hplain hlt
        omega
      · obtain ⟨hone, -⟩ := hspecial hge
        omega
    · intro hx
      have heq : x.toNat % 2 ^ 31 = 255 * 2 ^ 23 := hx
      exact hinfinite.mpr ((hspecial heq.ge).2.1.mpr heq)
    · intro hx
      have hgt : 255 * 2 ^ 23 < x.toNat % 2 ^ 31 := hx
      obtain ⟨-, hinfinity, hle⟩ := hspecial hgt.le
      rw [hnan]
      omega

theorem f32tof16Magnitude_mono {p q : Nat} (h : p ≤ q) :
    f32tof16Magnitude p ≤ f32tof16Magnitude q := by
  unfold f32tof16Magnitude
  split_ifs <;> omega

theorem f32tof16Magnitude_lt (p : Nat) : p < 255 * 2 ^ 23 → f32tof16Magnitude p < 31 * 2 ^ 10 := by
  intro h
  unfold f32tof16Magnitude
  split_ifs <;> omega

/-- The signed magnitude of a float, and that of a half with these bits. -/
theorem float_word (x : BitVec 32) :
    x.toNat = FloatFormat.binary32.word (decide (x.toNat / 2 ^ 31 = 1)) (x.toNat % 2 ^ 31) := by
  have hwidth : x.toNat < 2 ^ 32 := x.isLt
  unfold FloatFormat.word
  simp only [decide_eq_true_eq]
  change _ = (if x.toNat / 2 ^ 31 = 1 then 2 ^ 31 else 0) + _
  split <;> omega

theorem half_word {h : BitVec 16} {sign m : Nat} (hh : h.toNat = sign * 2 ^ 15 + m)
    (hsign : sign < 2) : h.toNat = FloatFormat.binary16.word (decide (sign = 1)) m := by
  unfold FloatFormat.word
  simp only [decide_eq_true_eq]
  change _ = (if sign = 1 then 2 ^ 15 else 0) + _
  split <;> omega

/-- The order of two numbers is kept unless the larger is positive infinity and the smaller is
finite. -/
theorem f32tof16_mono_iff {x y : BitVec 32} (h : Binary32.le x y) :
    FloatFormat.binary16.le (f32tof16 x).toNat (f32tof16 y).toNat ↔
      (y = 0x7F800000 → FloatFormat.binary32.IsInfinite x.toNat) := by
  have hx : x.toNat % 2 ^ 31 ≤ 255 * 2 ^ 23 := Nat.le_of_not_lt h.1
  have hy : y.toNat % 2 ^ 31 ≤ 255 * 2 ^ 23 := Nat.le_of_not_lt h.2.1
  have horder : FloatFormat.signed (decide (x.toNat / 2 ^ 31 = 1)) (x.toNat % 2 ^ 31) ≤
      FloatFormat.signed (decide (y.toNat / 2 ^ 31 = 1)) (y.toNat % 2 ^ 31) := by
    unfold Binary32.le at h
    rwa [float_word x, float_word y, FloatFormat.le_word hx hy] at h
  have hinfinite : FloatFormat.binary32.IsInfinite x.toNat ↔ x.toNat % 2 ^ 31 = 255 * 2 ^ 23 :=
    Iff.rfl
  have htop : y = 0x7F800000 ↔ y.toNat = 255 * 2 ^ 23 := BitVec.toNat_inj.symm
  obtain ⟨sx, mx, hsx, hmx, hxbits, hxplain, hxspecial⟩ := exists_f32tof16 x
  obtain ⟨sy, my, hsy, hmy, hybits, hyplain, hyspecial⟩ := exists_f32tof16 y
  have hxlt := f32tof16Magnitude_lt (x.toNat % 2 ^ 31)
  have hylt := f32tof16Magnitude_lt (y.toNat % 2 ^ 31)
  have hup := f32tof16Magnitude_mono (p := x.toNat % 2 ^ 31) (q := y.toNat % 2 ^ 31)
  have hdown := f32tof16Magnitude_mono (p := y.toNat % 2 ^ 31) (q := x.toNat % 2 ^ 31)
  have hwidthx : x.toNat < 2 ^ 32 := x.isLt
  have hwidthy : y.toNat < 2 ^ 32 := y.isLt
  -- the two zeros are equal, and so are their halves
  have hzero : y.toNat % 2 ^ 31 = 0 → f32tof16Magnitude (y.toNat % 2 ^ 31) = 0 := by
    intro h
    rw [h]
    rfl
  have hmxle : mx ≤ 31 * 2 ^ 10 := by omega
  have hmyle : my ≤ 31 * 2 ^ 10 := by omega
  rw [half_word hxbits hsx, half_word hybits hsy, FloatFormat.le_word hmxle hmyle, hinfinite, htop]
  unfold FloatFormat.signed at horder ⊢
  simp only [decide_eq_true_eq] at horder ⊢
  clear hxbits hybits h
  rcases hx.lt_or_eq with hxfinite | hxtop
  · obtain ⟨hxsign, hxmagnitude⟩ := hxplain hxfinite
    clear hxplain hxspecial
    rcases hy.lt_or_eq with hyfinite | hytop
    · obtain ⟨hysign, hymagnitude⟩ := hyplain hyfinite
      clear hyplain hyspecial
      split_ifs at horder ⊢ <;> omega
    · obtain ⟨hysign, hyinfinity, -⟩ := hyspecial hytop.ge
      split_ifs at horder ⊢ <;> omega
  · obtain ⟨hxsign, hxinfinity, -⟩ := hxspecial hxtop.ge
    rcases hy.lt_or_eq with hyfinite | hytop
    · obtain ⟨hysign, hymagnitude⟩ := hyplain hyfinite
      split_ifs at horder ⊢ <;> omega
    · obtain ⟨hysign, hyinfinity, -⟩ := hyspecial hytop.ge
      split_ifs at horder ⊢ <;> omega

end Special

/-! ## Decoding -/

section Decoding

variable {h : BitVec 16}

/-- The half is a zero, a normal number or an infinity. -/
def NoSubnormalNorNaN (h : BitVec 16) : Prop :=
  h.toNat % 2 ^ 15 = 0 ∨ 2 ^ 10 ≤ h.toNat % 2 ^ 15 ∧ h.toNat % 2 ^ 15 ≤ 31 * 2 ^ 10

instance (h : BitVec 16) : Decidable (NoSubnormalNorNaN h) :=
  inferInstanceAs (Decidable (_ ∨ _ ∧ _))

/-- The magnitude `f16tof32` returns for such a half. -/
def f16tof32Magnitude (m : Nat) : Nat :=
  if m = 31 * 2 ^ 10 then 255 * 2 ^ 23 else if m = 0 then 0 else m * 2 ^ 13 + 112 * 2 ^ 23

theorem toNat_signExtend (h : BitVec 16) :
    (h.signExtend 32).toNat = h.toNat + if 2 ^ 15 ≤ h.toNat then 2 ^ 32 - 2 ^ 16 else 0 := by
  have hwidth : h.toNat < 2 ^ 16 := h.isLt
  rw [BitVec.toNat_signExtend, BitVec.toNat_setWidth, BitVec.msb_eq_decide,
    Nat.mod_eq_of_lt (hwidth.trans (by decide))]
  simp only [decide_eq_true_eq]

/-- The sign and the magnitude of the result. -/
theorem toNat_f16tof32 (hh : NoSubnormalNorNaN h) :
    (f16tof32 h).toNat = h.toNat / 2 ^ 15 * 2 ^ 31 + f16tof32Magnitude (h.toNat % 2 ^ 15) := by
  have hwidth : h.toNat < 2 ^ 16 := h.isLt
  have hextend := toNat_signExtend h
  have hsign : ((h.signExtend 32 &&& 0x8000) <<< 16).toNat = h.toNat / 2 ^ 15 * 2 ^ 31 := by
    rw [BitVec.toNat_shiftLeft, toNat_and_mask 15 1 rfl, hextend, Nat.shiftLeft_eq]
    split <;> omega
  have hexponent : (h.signExtend 32 &&& expMaskF16).toNat = h.toNat % 2 ^ 15 / 2 ^ 10 * 2 ^ 10 := by
    refine (toNat_and_mask 10 5 rfl).trans ?_
    rw [hextend]
    split <;> omega
  have hspecial : h.signExtend 32 &&& expMaskF16 = expMaskF16 ↔ h.toNat % 2 ^ 15 = 31 * 2 ^ 10 := by
    rw [← BitVec.toNat_inj, hexponent]
    change _ = 31 * 2 ^ 10 ↔ _
    unfold NoSubnormalNorNaN at hh
    omega
  have hzero : h.signExtend 32 &&& expMaskF16 = 0 ↔ h.toNat % 2 ^ 15 = 0 := by
    rw [← BitVec.toNat_inj, hexponent]
    change _ = 0 ↔ _
    unfold NoSubnormalNorNaN at hh
    omega
  unfold f16tof32 f16tof32Magnitude
  dsimp only
  simp only [hspecial, hzero]
  have hlow : h.signExtend 32 &&& 0x03FF = 0 ↔ h.toNat % 2 ^ 10 = 0 := by
    rw [← BitVec.toNat_inj, toNat_and_mask 0 10 rfl, hextend, Nat.pow_zero, Nat.div_one,
      Nat.mul_one]
    change _ = 0 ↔ _
    split <;> omega
  have hmagnitude : (h.signExtend 32 &&& 0x7FFF).toNat = h.toNat % 2 ^ 15 := by
    rw [toNat_and_mask 0 15 rfl, hextend, Nat.pow_zero, Nat.div_one, Nat.mul_one]
    split <;> omega
  have hfits : ∀ m < 2 ^ 15,
      (m * 2 ^ 13 % 2 ^ 32 + 112 * 2 ^ 23) % 2 ^ 32 = m * 2 ^ 13 + 112 * 2 ^ 23 := by
    intro m hm
    omega
  -- the sign goes on top of a magnitude of 31 bits
  have hsigned : ∀ v : BitVec 32, v.toNat < 2 ^ 31 →
      (v ||| (h.signExtend 32 &&& 0x8000) <<< 16).toNat = h.toNat / 2 ^ 15 * 2 ^ 31 + v.toNat := by
    intro v hv
    rw [BitVec.toNat_or, hsign, Nat.or_comm, or_of_lt hv]
  by_cases hinfinity : h.toNat % 2 ^ 15 = 31 * 2 ^ 10
  · have hfraction : h.signExtend 32 &&& 0x03FF = 0 := hlow.mpr (by omega)
    rw [if_pos hinfinity, if_pos hinfinity, hfraction, if_neg (not_not_intro rfl)]
    exact hsigned _ (by decide)
  · rw [if_neg hinfinity, if_neg hinfinity]
    by_cases hempty : h.toNat % 2 ^ 15 = 0
    · rw [if_pos hempty, if_pos hempty, hsign, Nat.add_zero]
    · have hmoved : ((h.signExtend 32 &&& 0x7FFF) <<< (23 - 10) +
          (127 - 15 : BitVec 32) <<< 23).toNat = h.toNat % 2 ^ 15 * 2 ^ 13 + 112 * 2 ^ 23 := by
        rw [BitVec.toNat_add, BitVec.toNat_shiftLeft, hmagnitude, Nat.shiftLeft_eq]
        exact hfits _ (Nat.mod_lt _ (by decide))
      rw [if_neg hempty, if_neg hempty, hsigned _ (by rw [hmoved]; omega), hmoved]

theorem f16tof32Magnitude_infinity : f16tof32Magnitude (31 * 2 ^ 10) = 255 * 2 ^ 23 := if_pos rfl

theorem f16tof32Magnitude_zero : f16tof32Magnitude 0 = 0 := rfl

theorem f16tof32Magnitude_normal {m : Nat} (hm : m ≠ 0) (hlt : m < 31 * 2 ^ 10) :
    f16tof32Magnitude m = m * 2 ^ 13 + 112 * 2 ^ 23 := by
  unfold f16tof32Magnitude
  rw [if_neg hlt.ne, if_neg hm]

theorem f32tof16Magnitude_f16tof32Magnitude {m : Nat} (hm : m = 0 ∨ 2 ^ 10 ≤ m)
    (hlt : m < 31 * 2 ^ 10) : f32tof16Magnitude (f16tof32Magnitude m) = m := by
  rcases hm with rfl | hm
  · rfl
  · rw [f16tof32Magnitude_normal (by omega) hlt]
    unfold f32tof16Magnitude
    split_ifs <;> omega

theorem f16tof32Magnitude_le {m : Nat} (hm : m ≤ 31 * 2 ^ 10) :
    f16tof32Magnitude m ≤ 255 * 2 ^ 23 ∧
      (f16tof32Magnitude m = 255 * 2 ^ 23 ↔ m = 31 * 2 ^ 10) ∧
      (f16tof32Magnitude m = 0 ↔ m = 0) := by
  rcases hm.lt_or_eq with hlt | rfl
  · rcases Nat.eq_zero_or_pos m with rfl | hpos
    · rw [f16tof32Magnitude_zero]
      decide
    · rw [f16tof32Magnitude_normal hpos.ne' hlt]
      omega
  · rw [f16tof32Magnitude_infinity]
    decide

/-- The sign and the magnitude of a decoded half. -/
theorem f16tof32_fields (hh : NoSubnormalNorNaN h) :
    (f16tof32 h).toNat / 2 ^ 31 = h.toNat / 2 ^ 15 ∧
      (f16tof32 h).toNat % 2 ^ 31 = f16tof32Magnitude (h.toNat % 2 ^ 15) := by
  have hm : h.toNat % 2 ^ 15 ≤ 31 * 2 ^ 10 := by
    unfold NoSubnormalNorNaN at hh
    omega
  obtain ⟨hle, -, -⟩ := f16tof32Magnitude_le hm
  rw [toNat_f16tof32 hh]
  generalize f16tof32Magnitude (h.toNat % 2 ^ 15) = p at hle ⊢
  omega

/-- Every such half but positive infinity comes back. -/
theorem f32tof16_f16tof32_iff (hh : NoSubnormalNorNaN h) :
    f32tof16 (f16tof32 h) = h ↔ h ≠ 0x7C00 := by
  have hwidth : h.toNat < 2 ^ 16 := h.isLt
  have hm : h.toNat % 2 ^ 15 ≤ 31 * 2 ^ 10 := by
    unfold NoSubnormalNorNaN at hh
    omega
  have htop : h = 0x7C00 ↔ h.toNat = 31 * 2 ^ 10 := BitVec.toNat_inj.symm
  obtain ⟨hsign, hmagnitude⟩ := f16tof32_fields hh
  obtain ⟨hle, hinfinity, -⟩ := f16tof32Magnitude_le hm
  rw [← BitVec.toNat_inj, ne_eq, htop]
  rcases hle.lt_or_eq with hlt | heq
  · have hfinite : h.toNat % 2 ^ 15 < 31 * 2 ^ 10 := by omega
    have hback := f32tof16Magnitude_f16tof32Magnitude
      (hh.imp_right fun hnormal => hnormal.1) hfinite
    rw [toNat_f32tof16 (by rw [hmagnitude]; exact hlt), hsign, hmagnitude, hback]
    omega
  · obtain ⟨m, -, hbits, hspecial, -⟩ :=
      toNat_f32tof16_special (x := f16tof32 h) (by rw [hmagnitude]; exact heq.ge)
    have hvalue := hspecial.mpr (hmagnitude.trans heq)
    have hinfinite := hinfinity.mp heq
    rw [hbits, hvalue]
    omega

/-! ### Arrays -/

/-- A scale of one and a bias of zero make the negative zero positive. -/
theorem scaled_eq {x : BitVec 32} (hx : x.toNat % 2 ^ 31 ≤ 255 * 2 ^ 23) :
    Binary32.add (Binary32.mul x 0x3F800000) 0 = if x.toNat % 2 ^ 31 = 0 then 0 else x := by
  have hone : (FloatFormat.binary32.units 0x3F800000 : Rat) *
      2 ^ FloatFormat.binary32.least = 1 := by
    have hunits : FloatFormat.binary32.units 0x3F800000 = 2 ^ 149 := by decide +kernel
    have hleast : FloatFormat.binary32.least = -149 := rfl
    rw [hunits, hleast]
    norm_num
  have hmul : FloatFormat.binary32.mul x.toNat 0x3F800000 = x.toNat := by
    have hword := FloatFormat.mul_one_word (s := decide (x.toNat / 2 ^ 31 = 1)) (by decide) hone hx
    rwa [← float_word x] at hword
  have hadd : FloatFormat.binary32.add x.toNat 0 = if x.toNat % 2 ^ 31 = 0 then 0 else x.toNat := by
    have hpositive : 0 < FloatFormat.binary32.infinity := by decide
    have hword := FloatFormat.add_zero_word (s := decide (x.toNat / 2 ^ 31 = 1)) hpositive hx
    rwa [← float_word x] at hword
  have hscaled : Binary32.mul x 0x3F800000 = x := by
    unfold Binary32.mul
    change BitVec.ofNat 32 (FloatFormat.binary32.mul x.toNat 0x3F800000) = x
    rw [hmul, BitVec.ofNat_toNat, BitVec.setWidth_eq]
  rw [hscaled]
  unfold Binary32.add
  change BitVec.ofNat 32 (FloatFormat.binary32.add x.toNat 0) = _
  rw [hadd]
  split
  · rfl
  · rw [BitVec.ofNat_toNat, BitVec.setWidth_eq]

/-- What the two conversions of the arrays do to one element. -/
theorem f32tof16_scaled_iff (hh : NoSubnormalNorNaN h) :
    f32tof16 (Binary32.add (Binary32.mul (Binary32.add (Binary32.mul (f16tof32 h) 0x3F800000) 0)
      0x3F800000) 0) = h ↔ h ≠ 0x7C00 ∧ h ≠ 0x8000 := by
  have hwidth : h.toNat < 2 ^ 16 := h.isLt
  have hm : h.toNat % 2 ^ 15 ≤ 31 * 2 ^ 10 := by
    unfold NoSubnormalNorNaN at hh
    omega
  obtain ⟨-, hmagnitude⟩ := f16tof32_fields hh
  obtain ⟨hle, -, hzero⟩ := f16tof32Magnitude_le hm
  have hscaled := scaled_eq (x := f16tof32 h) (by rwa [hmagnitude])
  rw [hscaled]
  by_cases hempty : h.toNat % 2 ^ 15 = 0
  · -- both zeros come back as the positive one
    have hpositive : f32tof16 (Binary32.add (Binary32.mul 0 0x3F800000) 0) = 0 := by
      decide +kernel
    rw [if_pos (by rw [hmagnitude, hzero.mpr hempty]), hpositive]
    simp only [ne_eq, ← BitVec.toNat_inj]
    change 0 = h.toNat ↔ ¬ h.toNat = 31 * 2 ^ 10 ∧ ¬ h.toNat = 2 ^ 15
    omega
  · have hnonzero : ¬ (f16tof32 h).toNat % 2 ^ 31 = 0 := by
      rw [hmagnitude]
      exact fun heq => hempty (hzero.mp heq)
    have hnot : h ≠ 0x8000 := by
      intro heq
      subst heq
      exact hempty rfl
    rw [if_neg hnonzero] at hscaled ⊢
    rw [hscaled, f32tof16_f16tof32_iff hh]
    exact ⟨fun hne => ⟨hne, hnot⟩, fun hboth => hboth.1⟩

/-- Halves that come back from an array conversion with a scale of one and a bias of zero. -/
theorem f32tof16Arrays_f16tof32Arrays_iff {halves out : List (BitVec 16)}
    {floats : List (BitVec 32)} (hfloats : floats.length = halves.length)
    (hout : out.length = halves.length) (hhalves : ∀ h ∈ halves, NoSubnormalNorNaN h) :
    f32tof16Arrays out (f16tof32Arrays floats halves halves.length 0x3F800000 0)
      halves.length 0x3F800000 0 = halves ↔ ∀ h ∈ halves, h ≠ 0x7C00 ∧ h ≠ 0x8000 := by
  have hdecoded : f16tof32Arrays floats halves halves.length 0x3F800000 0 = halves.map fun h =>
      Binary32.add (Binary32.mul (f16tof32 h) 0x3F800000) 0 := by
    unfold f16tof32Arrays
    rw [convertElements_eq _ _ _ (Nat.le_refl _) hfloats.ge, List.take_length, ← hfloats,
      List.drop_length, List.append_nil]
  have hencoded : ∀ xs : List (BitVec 32), xs.length = halves.length →
      f32tof16Arrays out xs halves.length 0x3F800000 0 = xs.map fun x =>
        f32tof16 (Binary32.add (Binary32.mul x 0x3F800000) 0) := by
    intro xs hxs
    unfold f32tof16Arrays
    rw [convertElements_eq _ _ _ hxs.ge hout.ge, ← hxs, List.take_length, hxs, ← hout,
      List.drop_length, List.append_nil]
  have hpointwise : ∀ f : BitVec 16 → BitVec 16,
      halves.map f = halves ↔ ∀ h ∈ halves, f h = h := by
    intro f
    have hmap := List.map_inj_left (f := f) (g := id) (l := halves)
    rwa [List.map_id] at hmap
  rw [hdecoded, hencoded _ (List.length_map _), List.map_map, hpointwise]
  exact forall₂_congr fun h hmem => f32tof16_scaled_iff (hhalves h hmem)

/-- **What `f32tof16` keeps.**  The sign, the infinities and the NaNs, except of positive
infinity and positive NaNs; the order, except of finite numbers below positive infinity; every
decoded half but positive infinity, and through the arrays every one but that and the negative
zero. -/
theorem f32tof16_keeps (x y : BitVec 32) (h : BitVec 16) (halves out : List (BitVec 16))
    (floats : List (BitVec 32)) :
    (KeepsClass x (f32tof16 x) ↔
      FloatFormat.binary32.Finite x.toNat ∨ FloatFormat.binary32.negative x.toNat = true) ∧
    (Binary32.le x y →
      (FloatFormat.binary16.le (f32tof16 x).toNat (f32tof16 y).toNat ↔
        (y = 0x7F800000 → FloatFormat.binary32.IsInfinite x.toNat))) ∧
    (NoSubnormalNorNaN h → (f32tof16 (f16tof32 h) = h ↔ h ≠ 0x7C00)) ∧
    (floats.length = halves.length → out.length = halves.length →
      (∀ h ∈ halves, NoSubnormalNorNaN h) →
      (f32tof16Arrays out (f16tof32Arrays floats halves halves.length 0x3F800000 0)
        halves.length 0x3F800000 0 = halves ↔ ∀ h ∈ halves, h ≠ 0x7C00 ∧ h ≠ 0x8000)) :=
  ⟨keepsClass_f32tof16_iff x, f32tof16_mono_iff, f32tof16_f16tof32_iff,
    f32tof16Arrays_f16tof32Arrays_iff⟩

/-- One and negative infinity. -/
def sampleHalves : List (BitVec 16) := [0x3C00, 0xFC00]

/-- One below two, the least normal half, and an array. -/
theorem f32tof16_keeps_sample :
    KeepsClass 0x3F800000 (f32tof16 0x3F800000) ∧
      FloatFormat.binary16.le (f32tof16 0x3F800000).toNat (f32tof16 0x40000000).toNat ∧
      f32tof16 (f16tof32 0x0400) = 0x0400 ∧
      f32tof16Arrays [0, 0] (f16tof32Arrays [0, 0] sampleHalves sampleHalves.length 0x3F800000 0)
        sampleHalves.length 0x3F800000 0 = sampleHalves := by
  have hall : ∀ h ∈ sampleHalves, NoSubnormalNorNaN h :=
    List.forall_mem_cons.mpr ⟨by decide +kernel, List.forall_mem_singleton.mpr (by decide +kernel)⟩
  have hkept : ∀ h ∈ sampleHalves, h ≠ 0x7C00 ∧ h ≠ 0x8000 :=
    List.forall_mem_cons.mpr ⟨by decide, List.forall_mem_singleton.mpr (by decide)⟩
  obtain ⟨hclass, horder, hhalf, harray⟩ :=
    f32tof16_keeps 0x3F800000 0x40000000 0x0400 sampleHalves [0, 0] [0, 0]
  have hordered := (horder (by decide +kernel)).mpr fun hinf => absurd hinf (by decide)
  have hback := (hhalf (by decide +kernel)).mpr (by decide)
  have hone : FloatFormat.binary32.Finite (0x3F800000 : BitVec 32).toNat :=
    FloatFormat.finite_iff.mpr (by decide)
  exact ⟨hclass.mpr (.inl hone), hordered, hback, (harray rfl rfl hall).mpr hkept⟩

/-- Positive infinity comes out negative. -/
theorem f32tof16_infinity :
    ¬ ((∀ x : BitVec 32, KeepsClass x (f32tof16 x)) ∧
      (∀ x y : BitVec 32, Binary32.le x y →
        FloatFormat.binary16.le (f32tof16 x).toNat (f32tof16 y).toNat) ∧
      (∀ h : BitVec 16, NoSubnormalNorNaN h → f32tof16 (f16tof32 h) = h) ∧
      ∀ (halves out : List (BitVec 16)) (floats : List (BitVec 32)),
        floats.length = halves.length → out.length = halves.length →
        (∀ h ∈ halves, NoSubnormalNorNaN h) →
        f32tof16Arrays out (f16tof32Arrays floats halves halves.length 0x3F800000 0)
          halves.length 0x3F800000 0 = halves) := by
  intro hkeeps
  have hsign := (hkeeps.1 0x7F800000).sign
  exact absurd hsign (by decide +kernel)

end Decoding

end NnHal
