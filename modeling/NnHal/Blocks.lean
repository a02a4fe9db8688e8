import NnHal.Tensors

/-!
# Blocks of an image

The cells of an image fall into blocks of one height and width.  Gathering moves the position
of a cell in its block to the front of another axis, and spreading takes it back; with the axis
of channels these are space to depth and depth to space, with the axis of batches space to batch
and batch to space.  The axis counts the positions first: the cell at `(i, j)` of a block with
the coordinate `a` has the coordinate `(i * bw + j) * size + a` after gathering.
-/

namespace Tensors

/-! ## Quotients and remainders -/

theorem mul_add_ediv_of_lt {q m r : Int} (hr : 0 ≤ r) (hlt : r < m) : (q * m + r) / m = q := by
  rw [Int.add_comm, Int.add_mul_ediv_right _ _ (by omega), Int.ediv_eq_zero_of_lt hr hlt,
    Int.zero_add]

theorem mul_add_emod_of_lt {q m r : Int} (hr : 0 ≤ r) (hlt : r < m) : (q * m + r) % m = r := by
  rw [Int.add_comm, Int.add_mul_emod_self_right, Int.emod_eq_of_lt hr hlt]

/-- A digit and a rest below a bound are below the product. -/
theorem mul_add_lt_mul {q m r k : Int} (hq : q < k) (hlt : r < m) (hm : 0 ≤ m) :
    q * m + r < k * m := by
  have hle : q * m + m ≤ k * m := by
    have hstep := Int.mul_le_mul_of_nonneg_right (Int.add_one_le_of_lt hq) hm
    rwa [Int.add_mul, Int.one_mul] at hstep
  omega

namespace Tensor

section Blocks

variable {R : Type} [Zero R]

/-- The positions in the blocks, moved to the front of an axis. -/
def gatherBlocks (axis bh bw : Nat) (x : Tensor R) : Tensor R :=
  let size := x.shape.getD axis 0
  ofFn (((x.shape.set axis (bh * bw * size)).set 2 (x.shape.getD 2 0 / bh)).set 3
      (x.shape.getD 3 0 / bw)) fun index =>
    let position := index.getD axis 0 / size
    x.get (((index.set axis (index.getD axis 0 % size)).set 2
      (index.getD 2 0 * bh + position / bw)).set 3 (index.getD 3 0 * bw + position % bw))

/-- The positions in the blocks, taken from the front of an axis. -/
def spreadBlocks (axis bh bw : Nat) (x : Tensor R) : Tensor R :=
  let size := x.shape.getD axis 0 / (bh * bw)
  ofFn (((x.shape.set axis size).set 2 (x.shape.getD 2 0 * bh)).set 3
      (x.shape.getD 3 0 * bw)) fun index =>
    let position := index.getD 2 0 % bh * bw + index.getD 3 0 % bw
    x.get (((index.set axis (position * size + index.getD axis 0)).set 2
      (index.getD 2 0 / bh)).set 3 (index.getD 3 0 / bw))

/-- A list over four axes with `a` on the first or the second one. -/
def onAxis {α : Type} (axis : Nat) (a other y z : α) : List α :=
  if axis = 0 then [a, other, y, z] else [other, a, y, z]

variable {axis bh bw size other h w : Nat} {x : Tensor R}

theorem inside_onAxis {a b y z : Int} :
    Inside (onAxis axis size other h w) (onAxis axis a b y z) ↔
      (0 ≤ a ∧ a < size) ∧ (0 ≤ b ∧ b < other) ∧ (0 ≤ y ∧ y < h) ∧ 0 ≤ z ∧ z < w := by
  unfold onAxis
  by_cases haxis : axis = 0
  · simp only [haxis, if_true, inside_cons, inside_nil, and_true]
  · simp only [haxis, if_false, inside_cons, inside_nil, and_true]
    exact and_left_comm

theorem exists_onAxis {index : List Int} (hin : Inside (onAxis axis size other h w) index) :
    ∃ a b y z, index = onAxis axis a b y z := by
  have hlength : index.length = 4 := by
    rw [hin.length_eq]
    unfold onAxis
    split <;> rfl
  obtain ⟨i, j, y, z, rfl⟩ : ∃ i j y z, index = [i, j, y, z] := by
    match index, hlength with
    | [i, j, y, z], _ => exact ⟨i, j, y, z, rfl⟩
  by_cases haxis : axis = 0
  · exact ⟨i, j, y, z, by simp [onAxis, haxis]⟩
  · exact ⟨j, i, y, z, by simp [onAxis, haxis]⟩

section Gather

variable (haxis : axis < 2)

include haxis

theorem shape_gatherBlocks (hbh : 0 < bh) (hbw : 0 < bw)
    (hx : x.shape = onAxis axis size other (h * bh) (w * bw)) :
    (x.gatherBlocks axis bh bw).shape = onAxis axis (bh * bw * size) other h w := by
  obtain rfl | rfl : axis = 0 ∨ axis = 1 := by omega
  all_goals simp [gatherBlocks, hx, onAxis, hbh, hbw]

theorem get_gatherBlocks (hbh : 0 < bh) (hbw : 0 < bw)
    (hx : x.shape = onAxis axis size other (h * bh) (w * bw)) {a b y z : Int}
    (hin : Inside (onAxis axis (bh * bw * size) other h w) (onAxis axis a b y z)) :
    (x.gatherBlocks axis bh bw).get (onAxis axis a b y z) =
      x.get (onAxis axis (a % size) b (y * bh + a / size / bw) (z * bw + a / size % bw)) := by
  have hshape := shape_gatherBlocks haxis hbh hbw hx
  rw [← hshape] at hin
  refine (get_ofFn hin).trans ?_
  obtain rfl | rfl : axis = 0 ∨ axis = 1 := by omega
  all_goals simp [hx, onAxis]

theorem shape_spreadBlocks (hbh : 0 < bh) (hbw : 0 < bw)
    (hx : x.shape = onAxis axis (bh * bw * size) other h w) :
    (x.spreadBlocks axis bh bw).shape = onAxis axis size other (h * bh) (w * bw) := by
  have hpos : 0 < bh * bw := Nat.mul_pos hbh hbw
  obtain rfl | rfl : axis = 0 ∨ axis = 1 := by omega
  all_goals simp [spreadBlocks, hx, onAxis, hpos]

theorem get_spreadBlocks (hbh : 0 < bh) (hbw : 0 < bw)
    (hx : x.shape = onAxis axis (bh * bw * size) other h w) {a b y z : Int}
    (hin : Inside (onAxis axis size other (h * bh) (w * bw)) (onAxis axis a b y z)) :
    (x.spreadBlocks axis bh bw).get (onAxis axis a b y z) =
      x.get (onAxis axis ((y % bh * bw + z % bw) * size + a) b (y / bh) (z / bw)) := by
  have hpos : 0 < bh * bw := Nat.mul_pos hbh hbw
  have hshape := shape_spreadBlocks haxis hbh hbw hx
  rw [← hshape] at hin
  refine (get_ofFn hin).trans ?_
  obtain rfl | rfl : axis = 0 ∨ axis = 1 := by omega
  all_goals simp [hx, onAxis, hpos]

/-- A cell of a block is found under its position. -/
theorem get_gatherBlocks_cell (hx : x.shape = onAxis axis size other (h * bh) (w * bw))
    {a b y z i j : Int} (ha : 0 ≤ a ∧ a < size) (hb : 0 ≤ b ∧ b < other) (hy : 0 ≤ y ∧ y < h)
    (hz : 0 ≤ z ∧ z < w) (hi : 0 ≤ i ∧ i < bh) (hj : 0 ≤ j ∧ j < bw) :
    (x.gatherBlocks axis bh bw).get (onAxis axis ((i * bw + j) * size + a) b y z) =
      x.get (onAxis axis a b (y * bh + i) (z * bw + j)) := by
  have hbh : 0 < bh := by omega
  have hbw : 0 < bw := by omega
  have hposition : i * bw + j < bh * bw := mul_add_lt_mul hi.2 hj.2 (Int.natCast_nonneg bw)
  have hleast : 0 ≤ i * bw + j :=
    Int.add_nonneg (Int.mul_nonneg hi.1 (Int.natCast_nonneg bw)) hj.1
  have hchannel : (i * bw + j) * size + a < bh * bw * size :=
    mul_add_lt_mul hposition ha.2 (Int.natCast_nonneg size)
  have hfirst : 0 ≤ (i * bw + j) * size + a :=
    Int.add_nonneg (Int.mul_nonneg hleast (Int.natCast_nonneg size)) ha.1
  have hin : Inside (onAxis axis (bh * bw * size) other h w)
      (onAxis axis ((i * bw + j) * size + a) b y z) := by
    rw [inside_onAxis]
    exact ⟨⟨hfirst, by push_cast; exact hchannel⟩, hb, hy, hz⟩
  rw [get_gatherBlocks haxis hbh hbw hx hin, mul_add_ediv_of_lt ha.1 ha.2,
    mul_add_emod_of_lt ha.1 ha.2, mul_add_ediv_of_lt hj.1 hj.2, mul_add_emod_of_lt hj.1 hj.2]

/-- Spreading undoes gathering. -/
theorem spreadBlocks_gatherBlocks (hbh : 0 < bh) (hbw : 0 < bw)
    (hx : x.shape = onAxis axis size other (h * bh) (w * bw)) :
    (x.gatherBlocks axis bh bw).spreadBlocks axis bh bw = x := by
  have hgathered := shape_gatherBlocks haxis hbh hbw hx
  have hspread := shape_spreadBlocks haxis hbh hbw hgathered
  apply ext_inside (hspread.trans hx.symm)
  intro index hin
  rw [hspread] at hin
  obtain ⟨a, b, y, z, rfl⟩ := exists_onAxis hin
  rw [get_spreadBlocks haxis hbh hbw hgathered hin]
  obtain ⟨ha, hb, hy, hz⟩ := inside_onAxis.mp hin
  push_cast at hy hz
  have hheight : (0 : Int) < bh := by omega
  have hwidth : (0 : Int) < bw := by omega
  -- the row and the column split into a block and a position in it
  have hrow := Int.mul_ediv_add_emod y bh
  have hcolumn := Int.mul_ediv_add_emod z bw
  rw [get_gatherBlocks_cell haxis hx ha hb
    ⟨Int.ediv_nonneg hy.1 hheight.le, Int.ediv_lt_of_lt_mul hheight hy.2⟩
    ⟨Int.ediv_nonneg hz.1 hwidth.le, Int.ediv_lt_of_lt_mul hwidth hz.2⟩
    ⟨Int.emod_nonneg y hheight.ne', Int.emod_lt_of_pos y hheight⟩
    ⟨Int.emod_nonneg z hwidth.ne', Int.emod_lt_of_pos z hwidth⟩,
    Int.mul_comm (y / bh), Int.mul_comm (z / bw), hrow, hcolumn]

/-- Gathering undoes spreading. -/
theorem gatherBlocks_spreadBlocks (hbh : 0 < bh) (hbw : 0 < bw)
    (hx : x.shape = onAxis axis (bh * bw * size) other h w) :
    (x.spreadBlocks axis bh bw).gatherBlocks axis bh bw = x := by
  have hspread := shape_spreadBlocks haxis hbh hbw hx
  have hgathered := shape_gatherBlocks haxis hbh hbw hspread
  apply ext_inside (hgathered.trans hx.symm)
  intro index hin
  rw [hgathered] at hin
  obtain ⟨a, b, y, z, rfl⟩ := exists_onAxis hin
  rw [get_gatherBlocks haxis hbh hbw hspread hin]
  obtain ⟨ha, hb, hy, hz⟩ := inside_onAxis.mp hin
  push_cast at ha
  have hheight : (0 : Int) < bh := by omega
  have hwidth : (0 : Int) < bw := by omega
  have hsize : (0 : Int) < size := by
    rcases Nat.eq_zero_or_pos size with rfl | hsize
    · simp at ha
      omega
    · exact_mod_cast hsize
  -- the coordinate on the axis splits into a position and a rest, the position into a cell
  have hposition : 0 ≤ a / size ∧ a / size < bh * bw :=
    ⟨Int.ediv_nonneg ha.1 hsize.le, Int.ediv_lt_of_lt_mul hsize ha.2⟩
  have hrest : 0 ≤ a % size ∧ a % size < size :=
    ⟨Int.emod_nonneg a hsize.ne', Int.emod_lt_of_pos a hsize⟩
  have hi : 0 ≤ a / size / bw ∧ a / size / bw < bh :=
    ⟨Int.ediv_nonneg hposition.1 hwidth.le, Int.ediv_lt_of_lt_mul hwidth hposition.2⟩
  have hj : 0 ≤ a / size % bw ∧ a / size % bw < bw :=
    ⟨Int.emod_nonneg _ hwidth.ne', Int.emod_lt_of_pos _ hwidth⟩
  have hcell : Inside (onAxis axis size other (h * bh) (w * bw))
      (onAxis axis (a % size) b (y * bh + a / size / bw) (z * bw + a / size % bw)) := by
    rw [inside_onAxis]
    push_cast
    exact ⟨hrest, hb,
      ⟨Int.add_nonneg (Int.mul_nonneg hy.1 hheight.le) hi.1,
        mul_add_lt_mul hy.2 hi.2 hheight.le⟩,
      Int.add_nonneg (Int.mul_nonneg hz.1 hwidth.le) hj.1, mul_add_lt_mul hz.2 hj.2 hwidth.le⟩
  rw [get_spreadBlocks haxis hbh hbw hx hcell, mul_add_ediv_of_lt hi.1 hi.2,
    mul_add_emod_of_lt hi.1 hi.2, mul_add_ediv_of_lt hj.1 hj.2, mul_add_emod_of_lt hj.1 hj.2,
    Int.mul_comm (a / size / bw), Int.mul_ediv_add_emod, Int.mul_comm (a / size),
    Int.mul_ediv_add_emod]

end Gather

end Blocks

end Tensor

end Tensors
