import Mathlib.Algebra.Order.Floor.Ring
import Mathlib.Data.Rat.Floor
import Mathlib.Tactic.Linarith
import Mathlib.Tactic.Ring

/-!
# Windows over a padded axis

A window of `size` cells is moved over `n` cells in steps of `stride`.  Padding of the kind
"same" makes room for as many windows as the cells divided by the stride, rounded up.
-/

namespace Windows

/-- The windows that fit. -/
def count (n size stride : Int) : Int := ⌊((n - size : Int) : ℚ) / stride⌋ + 1

/-- The windows there are to be. -/
def outputs (n stride : Int) : Int := ⌈(n : ℚ) / stride⌉

/-- The cells that have to be added. -/
def padding (n size stride : Int) : Int := max 0 ((outputs n stride - 1) * stride + size - n)

variable {n size stride : Int}

/-- The last window starts inside the cells, and the next one would not. -/
theorem outputs_eq_iff (hstride : 1 ≤ stride) {z : Int} :
    outputs n stride = z ↔ (z - 1) * stride < n ∧ n ≤ z * stride := by
  have hpos : (0 : ℚ) < stride := by exact_mod_cast hstride
  unfold outputs
  rw [Int.ceil_eq_iff, lt_div_iff₀ hpos, div_le_iff₀ hpos]
  norm_cast

theorem count_eq_iff (hstride : 1 ≤ stride) {z : Int} :
    count n size stride = z ↔ (z - 1) * stride ≤ n - size ∧ n - size < z * stride := by
  have hpos : (0 : ℚ) < stride := by exact_mod_cast hstride
  have hsucc : count n size stride = z ↔ ⌊((n - size : Int) : ℚ) / stride⌋ = z - 1 := by
    unfold count
    omega
  rw [hsucc, Int.floor_eq_iff, le_div_iff₀ hpos, div_lt_iff₀ hpos]
  norm_cast
  rw [Int.sub_add_cancel]

/-- Rounding up, with a division that rounds down. -/
theorem outputs_eq_div (hstride : 1 ≤ stride) :
    outputs n stride = (n + stride - 1) / stride := by
  rw [outputs_eq_iff hstride]
  have hmod := Int.mul_ediv_add_emod (n + stride - 1) stride
  have hlow := Int.emod_nonneg (n + stride - 1) (by omega : stride ≠ 0)
  have hhigh := Int.emod_lt_of_pos (n + stride - 1) (by omega : 0 < stride)
  rw [Int.sub_mul, Int.one_mul, Int.mul_comm]
  omega

/-- **The windows.**  With the padding there are as many as there are to be. -/
theorem count_padding (hstride : 1 ≤ stride) (hsize : 1 ≤ size) :
    count (n + padding n size stride) size stride = outputs n stride := by
  obtain ⟨hlow, hhigh⟩ := (outputs_eq_iff (n := n) hstride).mp rfl
  rw [count_eq_iff hstride]
  unfold padding
  rcases le_total ((outputs n stride - 1) * stride + size - n) 0 with hnone | hsome
  · -- the windows fit as they are
    rw [max_eq_left hnone]
    omega
  · rw [max_eq_right hsome]
    have hnext : outputs n stride * stride = (outputs n stride - 1) * stride + stride := by ring
    omega

end Windows
