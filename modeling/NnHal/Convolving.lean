import NnHal.Tensors

/-!
# Windows and convolutions

A `Window` says how a filter slides along one axis.  A convolution over two
spatial axes is a sum over the taps of the filter and the channels it reads;
what lies outside the input contributes nothing, because a tensor is zero
there.
-/

namespace Tensors

open scoped BigOperators

/-- How a filter slides along one axis. -/
structure Window where
  stride : Nat
  dilation : Nat
  padHead : Int
  padTail : Int
  deriving DecidableEq, Repr

namespace Window

/-- The number of cells a filter reaches over. -/
def extent (dilation filter : Nat) : Int := ((filter : Int) - 1) * dilation + 1

/-- The number of positions the filter takes. -/
def outputSize (window : Window) (size filter : Nat) : Nat :=
  ((size + window.padHead + window.padTail - extent window.dilation filter) / window.stride
    + 1).toNat

/-- The cell that a tap of the filter reads at a position. -/
def coord (window : Window) (position tap : Int) : Int :=
  window.stride * position + window.dilation * tap - window.padHead

/-- No padding. -/
def valid (stride dilation : Nat) : Window := { stride, dilation, padHead := 0, padTail := 0 }

/-- The padding with which the output has one cell for every stride of the
input; an odd cell goes to the tail. -/
def same (stride dilation size filter : Nat) : Window :=
  let outputSize : Int := ((size : Int) + stride - 1) / stride
  let needed := (outputSize - 1) * stride + extent dilation filter - size
  let total := max needed 0
  { stride, dilation, padHead := total / 2, padTail := total - total / 2 }

end Window

namespace Tensor

variable {R : Type} [CommRing R]

/-- Cross-correlation of an input `[batch, channel, height, width]` with a
filter `[output, channel, height, width]`. -/
def convolve (vertical horizontal : Window) (x filter : Tensor R) : Tensor R :=
  match x.shape, filter.shape with
  | [n, _, h, w], [o, c, fh, fw] =>
      ofFn [n, o, vertical.outputSize h fh, horizontal.outputSize w fw] fun
        | [b, k, i, j] =>
            ∑ di ∈ Finset.range fh, ∑ dj ∈ Finset.range fw, ∑ l ∈ Finset.range c,
              x.get [b, l, vertical.coord i di, horizontal.coord j dj] *
                filter.get [k, l, di, dj]
        | _ => 0
  | _, _ => default

/-- The same in groups, with a filter `[group, output, channel, height, width]`:
an output channel reads the input channels of its group. -/
def groupConvolve (vertical horizontal : Window) (x filter : Tensor R) : Tensor R :=
  match x.shape, filter.shape with
  | [n, _, h, w], [g, o, c, fh, fw] =>
      ofFn [n, g * o, vertical.outputSize h fh, horizontal.outputSize w fw] fun
        | [b, k, i, j] =>
            ∑ di ∈ Finset.range fh, ∑ dj ∈ Finset.range fw, ∑ l ∈ Finset.range c,
              x.get [b, k / o * c + l, vertical.coord i di, horizontal.coord j dj] *
                filter.get [k / o, k % o, l, di, dj]
        | _ => 0
  | _, _ => default

section Entries

variable {vertical horizontal : Window} {x filter : Tensor R} {n cx h w o c g fh fw : Nat}

theorem shape_convolve (hx : x.shape = [n, cx, h, w]) (hf : filter.shape = [o, c, fh, fw]) :
    (convolve vertical horizontal x filter).shape =
      [n, o, vertical.outputSize h fh, horizontal.outputSize w fw] := by
  simp only [convolve, hx, hf, shape_ofFn]

theorem get_convolve (hx : x.shape = [n, cx, h, w]) (hf : filter.shape = [o, c, fh, fw])
    {b k i j : Int} (hin : Inside [n, o, vertical.outputSize h fh, horizontal.outputSize w fw]
      [b, k, i, j]) :
    (convolve vertical horizontal x filter).get [b, k, i, j] =
      ∑ di ∈ Finset.range fh, ∑ dj ∈ Finset.range fw, ∑ l ∈ Finset.range c,
        x.get [b, l, vertical.coord i di, horizontal.coord j dj] *
          filter.get [k, l, di, dj] := by
  simp only [convolve, hx, hf]
  exact get_ofFn hin

theorem shape_groupConvolve (hx : x.shape = [n, cx, h, w])
    (hf : filter.shape = [g, o, c, fh, fw]) :
    (groupConvolve vertical horizontal x filter).shape =
      [n, g * o, vertical.outputSize h fh, horizontal.outputSize w fw] := by
  simp only [groupConvolve, hx, hf, shape_ofFn]

theorem get_groupConvolve (hx : x.shape = [n, cx, h, w])
    (hf : filter.shape = [g, o, c, fh, fw]) {b k i j : Int}
    (hin : Inside [n, g * o, vertical.outputSize h fh, horizontal.outputSize w fw]
      [b, k, i, j]) :
    (groupConvolve vertical horizontal x filter).get [b, k, i, j] =
      ∑ di ∈ Finset.range fh, ∑ dj ∈ Finset.range fw, ∑ l ∈ Finset.range c,
        x.get [b, k / o * c + l, vertical.coord i di, horizontal.coord j dj] *
          filter.get [k / o, k % o, l, di, dj] := by
  simp only [groupConvolve, hx, hf]
  exact get_ofFn hin

/-- Splitting the first axis into groups keeps every entry. -/
theorem get_reshape_groups (hf : filter.shape = [g * o, c, fh, fw]) {k l di dj : Int}
    (hin : Inside [g * o, c, fh, fw] [k, l, di, dj]) :
    (filter.reshape [g, o, c, fh, fw]).get [k / o, k % o, l, di, dj] =
      filter.get [k, l, di, dj] := by
  rcases hin with ⟨⟨hk, hlt⟩, hrest⟩
  have ho : (0 : Int) < o := by
    rcases Nat.eq_zero_or_pos o with h | h
    · subst h
      simp at hlt
      omega
    · omega
  have hgroup : k / o < g := by
    apply Int.ediv_lt_of_lt_mul ho
    simpa using hlt
  have hdiv : k / o * o + k % o = k := Int.ediv_mul_add_emod k o
  refine get_reshape ⟨⟨Int.ediv_nonneg hk ho.le, hgroup⟩, ?_⟩ (by rw [hf]; exact ⟨⟨hk, hlt⟩, hrest⟩)
    ?_
  · exact ⟨⟨Int.emod_nonneg k ho.ne', Int.emod_lt_of_pos k ho⟩, hrest⟩
  · rw [hf]
    simp only [flat, List.prod_cons, List.prod_nil, Nat.cast_mul, Nat.cast_one, mul_one]
    conv_rhs => rw [← hdiv]
    ring

/-- A filter with a single tap reads a single cell. -/
theorem sum_single_tap {f : Nat → Nat → Nat → R} {k : Int} {di dj l : Nat}
    (hin : Inside [o, fh, fw, c] [k, di, dj, l]) :
    ∑ a ∈ Finset.range fh, ∑ b ∈ Finset.range fw, ∑ q ∈ Finset.range c,
      f a b q * (single [o, fh, fw, c] [k, di, dj, l] : Tensor R).get [k, a, b, q] =
      f di dj l := by
  obtain ⟨_, ⟨_, hdi⟩, ⟨_, hdj⟩, ⟨_, hl⟩, _⟩ := id hin
  simp only [get_single hin, List.cons.injEq, Nat.cast_inj, true_and, and_true]
  rw [Finset.sum_eq_single di, Finset.sum_eq_single dj, Finset.sum_eq_single l]
  · simp
  · intro q _ hq
    simp [hq]
  · intro h
    exact absurd (Finset.mem_range.mpr (by omega)) h
  · intro b _ hb
    simp [hb]
  · intro h
    exact absurd (Finset.mem_range.mpr (by omega)) h
  · intro a _ ha
    simp [ha]
  · intro h
    exact absurd (Finset.mem_range.mpr (by omega)) h

end Entries

end Tensor

end Tensors
