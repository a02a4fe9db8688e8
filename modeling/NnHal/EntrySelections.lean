import NnHal.AxisReductions
import NnHal.Convolving
import NnHal.Slicing

/-!
# Selecting and moving entries

The positions that one tensor names along an axis of another, cells of one value
around a tensor, the entries of an axis dealt out in groups, and a function of
the cells that a window covers.  What is true of every entry, and of zero, stays so.
-/

namespace Tensors

namespace Tensor

variable {R : Type} [Zero R]

/-- Along an axis, the entries at the positions of another tensor. -/
def choose (axis : Nat) (positions : List Nat) (position : List Int → Int) (x : Tensor R) :
    Tensor R :=
  ofFn (x.shape.take axis ++ positions ++ x.shape.drop (axis + 1)) fun index =>
    let chosen := position ((index.drop axis).take positions.length)
    x.get (index.take axis ++ chosen :: index.drop (axis + positions.length))

/-- Cells of one value in front of every axis and behind it. -/
def pad (heads tails : List Nat) (v : R) (x : Tensor R) : Tensor R :=
  ofFn (List.zipWith (· + ·) (List.zipWith (· + ·) heads x.shape) tails) fun index =>
    let source := List.zipWith (fun (i : Int) (head : Nat) => i - head) index heads
    if Inside x.shape source then x.get source else v

/-- The entries of an axis, dealt out so that neighbours come from different groups. -/
def shuffle (axis groups : Nat) (x : Tensor R) : Tensor R :=
  let size := x.shape.getD axis 0 / groups
  ofFn x.shape fun index =>
    let i := index.getD axis 0
    x.get (index.set axis (i % groups * size + i / groups))

theorem get_shuffle {axis groups : Nat} {x : Tensor R} {index : List Int}
    (h : Inside x.shape index) :
    (x.shuffle axis groups).get index = x.get (index.set axis
      (index.getD axis 0 % groups * (x.shape.getD axis 0 / groups : Nat) +
        index.getD axis 0 / groups)) :=
  get_ofFn h

/-- The cells of an axis that a window covers. -/
def taps (window : Window) (filter size : Nat) (position : Int) : List Int :=
  ((List.range filter).map fun (tap : Nat) => window.coord position tap).filter fun i =>
    0 ≤ i ∧ i < size

/-- A function of the cells that a window covers, on `[batch, channel, height,
width]`. -/
def pool (f : List R → R) (vertical horizontal : Window) (fh fw : Nat) (x : Tensor R) :
    Tensor R :=
  match x.shape with
  | [n, c, h, w] =>
      ofFn [n, c, vertical.outputSize h fh, horizontal.outputSize w fw] fun
        | [b, k, i, j] =>
            f ((taps vertical fh h i).flatMap fun y =>
              (taps horizontal fw w j).map fun z => x.get [b, k, y, z])
        | _ => 0
  | _ => default

/-! ### Windows -/

section Windows

variable {f : List R → R} {vertical horizontal : Window} {fh fw n c h w : Nat} {x : Tensor R}

theorem mem_taps {window : Window} {filter size : Nat} {position i : Int}
    (hi : i ∈ taps window filter size position) : 0 ≤ i ∧ i < size := by
  simpa using (List.mem_filter.mp hi).2

theorem shape_pool (hx : x.shape = [n, c, h, w]) :
    (x.pool f vertical horizontal fh fw).shape =
      [n, c, vertical.outputSize h fh, horizontal.outputSize w fw] := by
  simp only [pool, hx, shape_ofFn]

theorem get_pool (hx : x.shape = [n, c, h, w]) {b k i j : Int}
    (hin : Inside [n, c, vertical.outputSize h fh, horizontal.outputSize w fw] [b, k, i, j]) :
    (x.pool f vertical horizontal fh fw).get [b, k, i, j] =
      f ((taps vertical fh h i).flatMap fun y =>
        (taps horizontal fw w j).map fun z => x.get [b, k, y, z]) := by
  simp only [pool, hx]
  exact get_ofFn hin

/-- A function of every entry before the windows are taken. -/
theorem pool_map (g : R → R) (hx : x.shape = [n, c, h, w]) :
    (x.map g).pool f vertical horizontal fh fw =
      x.pool (fun l => f (l.map g)) vertical horizontal fh fw := by
  have hmap : (x.map g).shape = [n, c, h, w] := hx
  have hshape : ((x.map g).pool f vertical horizontal fh fw).shape =
      [n, c, vertical.outputSize h fh, horizontal.outputSize w fw] := shape_pool hmap
  have hsame : ((x.map g).pool f vertical horizontal fh fw).shape =
      (x.pool (fun l => f (l.map g)) vertical horizontal fh fw).shape :=
    hshape.trans (shape_pool hx).symm
  apply ext_inside hsame
  intro index hin
  rw [hshape] at hin
  match index, hin with
  | [b, k, i, j], hin =>
      rw [get_pool hmap hin, get_pool hx hin, List.map_flatMap]
      refine congrArg f (congrArg List.flatten (List.map_congr_left fun y hy => ?_))
      rw [List.map_map]
      refine List.map_congr_left fun z hz => ?_
      have hcell : Inside x.shape [b, k, y, z] := by
        rw [hx]
        exact ⟨hin.1, hin.2.1, mem_taps hy, mem_taps hz, trivial⟩
      exact get_map hcell

end Windows

/-! ### Axes of size one at the end -/

section Trailing

variable {x : Tensor R} {axis groups k : Nat} {index : List Int}

/-- The axis of an entry is unchanged by axes of size one behind it. -/
theorem flat_append_ones (shape : List Nat) (index : List Int) (k : Nat)
    (h : index.length = shape.length) :
    flat (shape ++ List.replicate k 1) (index ++ List.replicate k 0) = flat shape index := by
  induction shape generalizing index with
  | nil =>
      cases index with
      | nil => exact flat_zeros _ _
      | cons i is => cases h
  | cons d ds ih =>
      cases index with
      | nil => cases h
      | cons i is =>
          have hprod : (ds ++ List.replicate k 1).prod = ds.prod := by simp
          simp only [List.cons_append, flat, hprod]
          rw [ih is (Nat.succ.inj h)]

theorem inside_append_ones (h : Inside x.shape index) :
    Inside (x.shape ++ List.replicate k 1) (index ++ List.replicate k 0) := by
  generalize x.shape = shape at h
  induction shape generalizing index with
  | nil =>
      cases index with
      | nil =>
          induction k with
          | zero => trivial
          | succ k ih => exact ⟨⟨le_refl 0, by decide⟩, ih⟩
      | cons i is => exact h.elim
  | cons d ds ih =>
      cases index with
      | nil => exact h.elim
      | cons i is => exact ⟨h.1, ih h.2⟩

theorem get_append_ones (h : Inside x.shape index) :
    (x.reshape (x.shape ++ List.replicate k 1)).get (index ++ List.replicate k 0) = x.get index :=
  get_reshape (inside_append_ones h) h (flat_append_ones _ _ _ h.length_eq)

/-- Shuffling an axis with axes of size one behind it. -/
theorem shuffle_append_ones (haxis : axis < x.shape.length)
    (hgroups : groups ∣ x.shape.getD axis 0) (hpos : 0 < groups) :
    ((x.reshape (x.shape ++ List.replicate k 1)).shuffle axis groups).reshape x.shape =
      x.shuffle axis groups := by
  have hsame : (((x.reshape (x.shape ++ List.replicate k 1)).shuffle axis groups).reshape
      x.shape).shape = (x.shuffle axis groups).shape := rfl
  apply ext_inside hsame
  intro index hin
  have hin' : Inside x.shape index := hin
  have hshape : ((x.reshape (x.shape ++ List.replicate k 1)).shuffle axis groups).shape =
      x.shape ++ List.replicate k 1 := rfl
  have hinside := inside_append_ones (k := k) hin'
  have haxis' : axis < index.length := by rwa [hin'.length_eq]
  have hsize : (x.shape ++ List.replicate k 1).getD axis 0 = x.shape.getD axis 0 := by
    rw [List.getD_append _ _ _ _ haxis]
  have hcoord : (index ++ List.replicate k 0).getD axis 0 = index.getD axis 0 := by
    rw [List.getD_append _ _ _ _ haxis']
  rw [get_reshape hin' hinside (by rw [hshape, flat_append_ones _ _ _ hin'.length_eq])]
  obtain ⟨size, hmul⟩ := hgroups
  have hquotient : x.shape.getD axis 0 / groups = size := by
    rw [hmul, Nat.mul_div_cancel_left size hpos]
  have hbound := (inside_iff.mp hin').2 axis haxis
  have hmoved : Inside x.shape (index.set axis (index.getD axis 0 % groups * size +
      index.getD axis 0 / groups)) := by
    apply hin'.set
    have hlow : 0 ≤ index.getD axis 0 % groups := Int.emod_nonneg _ (by omega)
    have hhigh : index.getD axis 0 % groups < groups := Int.emod_lt_of_pos _ (by omega)
    have hdiv : 0 ≤ index.getD axis 0 / groups := Int.ediv_nonneg hbound.1 (by omega)
    have hdivLt : index.getD axis 0 / groups < size := by
      rw [Int.ediv_lt_iff_lt_mul (by omega)]
      have hlt := hbound.2
      rw [hmul] at hlt
      push_cast at hlt
      rwa [Int.mul_comm]
    constructor
    · exact Int.add_nonneg (Int.mul_nonneg hlow (Int.natCast_nonneg _)) hdiv
    · have hle : (index.getD axis 0 % groups + 1) * (size : Int) ≤ groups * size :=
        Int.mul_le_mul_of_nonneg_right (by omega) (Int.natCast_nonneg _)
      rw [hmul]
      push_cast
      rw [Int.add_mul, Int.one_mul] at hle
      omega
  have hread : Inside (x.reshape (x.shape ++ List.replicate k 1)).shape
      (index ++ List.replicate k 0) := hinside
  rw [get_shuffle hread, get_shuffle hin', shape_reshape, hsize, hcoord, hquotient,
    List.set_append_left _ _ haxis', get_append_ones hmoved]

end Trailing

/-! ### What every entry is -/

section Every

variable {P : R → Prop} {x y : Tensor R} {shape : List Nat}

/-- Every entry has the property, the zeros outside of the shape included. -/
def Every (P : R → Prop) (x : Tensor R) : Prop := ∀ index, P (x.get index)

theorem every_of_inside (hzero : P 0) (h : ∀ index, Inside x.shape index → P (x.get index)) :
    x.Every P := by
  intro index
  by_cases hin : Inside x.shape index
  · exact h index hin
  · rw [x.outside index hin]
    exact hzero

theorem every_ofFn {f : List Int → R} (hzero : P 0) (h : ∀ index, P (f index)) :
    (ofFn shape f).Every P := by
  apply every_of_inside hzero
  intro index hin
  replace hin : Inside shape index := hin
  rw [get_ofFn hin]
  exact h index

namespace Every

/-- There is always an index outside. -/
theorem zero (h : x.Every P) : P 0 := by
  have hout : ¬ Inside x.shape (List.replicate (x.shape.length + 1) 0) := by
    intro hin
    have hlength := hin.length_eq
    rw [List.length_replicate] at hlength
    omega
  rw [← x.outside _ hout]
  exact h _

theorem map (h : x.Every P) {f : R → R} (hf : ∀ v, P v → P (f v)) : (x.map f).Every P :=
  every_ofFn h.zero fun index => hf _ (h index)

theorem broadcast (hx : x.Every P) (hy : y.Every P) {f : R → R → R}
    (hf : ∀ u v, P u → P v → P (f u v)) : (broadcast f x y).Every P :=
  every_ofFn hx.zero fun _ => hf _ _ (hx _) (hy _)

theorem transpose (h : x.Every P) (order : List Nat) : (x.transpose order).Every P :=
  every_ofFn h.zero fun _ => h _

theorem reshape (h : x.Every P) (shape : List Nat) : (x.reshape shape).Every P :=
  every_ofFn h.zero fun _ => h _

theorem choose (h : x.Every P) (axis : Nat) (positions : List Nat)
    (position : List Int → Int) : (x.choose axis positions position).Every P :=
  every_ofFn h.zero fun _ => h _

theorem shuffle (h : x.Every P) (axis groups : Nat) : (x.shuffle axis groups).Every P :=
  every_ofFn h.zero fun _ => h _

theorem pad (h : x.Every P) (heads tails : List Nat) : (x.pad heads tails 0).Every P := by
  apply every_ofFn h.zero
  intro index
  dsimp only
  split
  · exact h _
  · exact h.zero

theorem concat (hzero : P 0) {axis : Nat} {xs : List (Tensor R)} (h : ∀ x ∈ xs, x.Every P) :
    (concat axis xs).Every P := by
  apply every_ofFn hzero
  intro index
  induction xs generalizing index with
  | nil => exact hzero
  | cons x xs ih =>
      rw [concatAt]
      split
      · exact h x List.mem_cons_self index
      · exact ih (fun y hy => h y (List.mem_cons_of_mem _ hy)) _

/-- Along a line the property is that of the entries. -/
theorem reduceAxis (h : x.Every P) {f : List R → R} (hf : ∀ l, (∀ v ∈ l, P v) → P (f l))
    (axis : Nat) : (x.reduceAxis f axis).Every P := by
  apply every_ofFn h.zero
  intro index
  apply hf
  intro v hv
  obtain ⟨k, -, rfl⟩ := List.mem_map.mp hv
  exact h _

theorem reduce (h : x.Every P) {f : List R → R} (hf : ∀ l, (∀ v ∈ l, P v) → P (f l))
    (keepDims : Bool) (axes : List Nat) : (x.reduce f keepDims axes).Every P := by
  have hreduced : (x.reduceAxes f axes).Every P := by
    unfold reduceAxes
    induction axes generalizing x with
    | nil => exact h
    | cons axis axes ih => exact ih (h.reduceAxis hf axis)
  unfold Tensor.reduce
  dsimp only
  split
  · exact hreduced
  · exact hreduced.reshape _

end Every

end Every

end Tensor

end Tensors
