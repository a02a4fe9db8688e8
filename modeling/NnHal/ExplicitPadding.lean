import NnHal.OperationsBase
import NnHal.SameWindows

/-!
# The explicit padding of the scheme SAME

`calculateExplicitPadding` computes what `PaddingScheme` documents: the padding that makes
room for the input's size divided by the stride, rounded up, split into two halves of which
the tail is the larger one.
-/

namespace NnHal

open Command

section Same

variable {ng : Ngraph} {nodes : NgraphNodes} {inSize stride filterSize : Int}

/-- A quotient by a number that is not zero is computed without a fault. -/
theorem exec_divInt_bind {α : Type} {a b : Int} (hb : b ≠ 0) (f : Int → Gen α) :
    exec (answer ng) (divInt a b >>= f) nodes = exec (answer ng) (f (a.tdiv b)) nodes := by
  simp only [divInt, faultIf, decide_eq_false hb, Bool.false_eq_true, if_false]
  rfl

/-- The run returns the two halves of the padding. -/
theorem exec_calculateExplicitPadding (hin : 1 ≤ inSize) (hstride : 1 ≤ stride) :
    exec (answer ng) (calculateExplicitPadding inSize stride filterSize 1) nodes =
      ⟨.ok (Windows.padding inSize filterSize stride / 2,
        Windows.padding inSize filterSize stride - Windows.padding inSize filterSize stride / 2),
        nodes, []⟩ := by
  have hout : (inSize + stride - 1).tdiv stride = Windows.outputs inSize stride := by
    rw [Windows.outputs_eq_div hstride, Int.tdiv_eq_ediv_of_nonneg (by omega)]
  unfold calculateExplicitPadding
  rw [if_pos rfl, exec_divInt_bind (by omega), hout]
  unfold Windows.padding
  by_cases hmore : (Windows.outputs inSize stride - 1) * stride + filterSize > inSize
  · rw [if_pos hmore, max_eq_right (by omega), Int.tdiv_eq_ediv_of_nonneg (by omega)]
    rfl
  · rw [if_neg hmore, max_eq_left (by omega)]
    rfl

/-- **The explicit padding.**  It is not negative, the tail is the head or one more, and
with it there are as many windows as the input's size divided by the stride, rounded up. -/
theorem calculateExplicitPadding_same (hin : 1 ≤ inSize) (hstride : 1 ≤ stride)
    (hfilter : 1 ≤ filterSize) :
    ∃ head tail : Int,
      exec (answer ng) (calculateExplicitPadding inSize stride filterSize 1) nodes =
        ⟨.ok (head, tail), nodes, []⟩ ∧
      0 ≤ head ∧ head ≤ tail ∧ tail ≤ head + 1 ∧
      head + tail = max 0 ((⌈(inSize : ℚ) / stride⌉ - 1) * stride + filterSize - inSize) ∧
      ⌊((inSize + head + tail - filterSize : Int) : ℚ) / stride⌋ + 1 =
        ⌈(inSize : ℚ) / stride⌉ := by
  have hnonneg : 0 ≤ Windows.padding inSize filterSize stride := le_max_left _ _
  refine ⟨_, _, exec_calculateExplicitPadding hin hstride, by omega, by omega, by omega, ?_, ?_⟩
  · rw [add_sub_cancel]
    rfl
  · have hsum : inSize + Windows.padding inSize filterSize stride / 2 +
        (Windows.padding inSize filterSize stride -
          Windows.padding inSize filterSize stride / 2) =
        inSize + Windows.padding inSize filterSize stride := by omega
    rw [hsum]
    exact Windows.count_padding hstride hfilter

/-- Five cells, windows of three in steps of two: one cell at each end. -/
theorem calculateExplicitPadding_five :
    ∃ head tail : Int,
      exec (answer .permissive) (calculateExplicitPadding 5 2 3 1) {} =
        ⟨.ok (head, tail), {}, []⟩ ∧
      0 ≤ head ∧ head ≤ tail ∧ tail ≤ head + 1 ∧
      head + tail = max 0 ((⌈((5 : Int) : ℚ) / (2 : Int)⌉ - 1) * 2 + 3 - 5) ∧
      ⌊((5 + head + tail - 3 : Int) : ℚ) / (2 : Int)⌋ + 1 = ⌈((5 : Int) : ℚ) / (2 : Int)⌉ :=
  calculateExplicitPadding_same (by decide) (by decide) (by decide)

end Same

end NnHal
