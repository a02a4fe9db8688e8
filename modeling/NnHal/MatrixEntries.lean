import Mathlib.Algebra.Field.Basic
import NnHal.Matrices

/-!
# Matrices by their entries

A matrix given by a function of its row and its column.  The operations on such
matrices are operations on the functions: broadcasting a row, a column or a number,
the product with a transposed matrix, the transposition and the means of the rows.
-/

namespace Tensors

/-- A column broadcasts over the rows. -/
theorem broadcastable_column (m n : Nat) : Broadcastable [m, n] [m, 1] := by
  intro k
  match k with
  | 0 => exact .inr (.inr rfl)
  | 1 => exact .inl rfl
  | k + 2 => exact .inl rfl

/-- A number broadcasts to any shape. -/
theorem broadcastable_number (s : List Nat) : Broadcastable s [] := fun _ => .inr (.inr rfl)

namespace Tensor

section Zero

variable {R : Type} [Zero R]

/-- The matrix with these entries. -/
def matrix (m n : Nat) (f : Int → Int → R) : Tensor R :=
  ofFn [m, n] fun
    | [i, j] => f i j
    | _ => 0

variable {m n : Nat} {f g : Int → Int → R} {op : R → R → R} {x y : Tensor R}

@[simp] theorem shape_matrix (m n : Nat) (f : Int → Int → R) : (matrix m n f).shape = [m, n] := rfl

theorem get_matrix {i j : Int} (hin : Inside [m, n] [i, j]) : (matrix m n f).get [i, j] = f i j :=
  get_ofFn hin

theorem matrix_congr (h : ∀ i j, Inside [m, n] [i, j] → f i j = g i j) :
    matrix m n f = matrix m n g := by
  apply ext_matrix rfl rfl
  intro i j hin
  rw [get_matrix hin, get_matrix hin, h i j hin]

/-- A tensor of two axes is the matrix of its entries. -/
theorem eq_matrix (hx : x.shape = [m, n]) : x = matrix m n fun i j => x.get [i, j] :=
  ext_matrix hx rfl fun i j hin => by rw [get_matrix hin]

theorem map_matrix (h : R → R) : (matrix m n f).map h = matrix m n fun i j => h (f i j) := by
  apply ext_matrix rfl rfl
  intro i j hin
  have hin' : Inside (matrix m n f).shape [i, j] := hin
  rw [get_map hin', get_matrix hin, get_matrix hin]

theorem broadcast_matrix :
    broadcast op (matrix m n f) (matrix m n g) = matrix m n fun i j => op (f i j) (g i j) := by
  have hsame : (matrix m n g).shape = (matrix m n f).shape := rfl
  apply ext_matrix (shape_broadcast_same hsame) rfl
  intro i j hin
  have hin' : Inside (matrix m n f).shape [i, j] := hin
  rw [get_broadcast_same hsame hin', get_matrix hin, get_matrix hin, get_matrix hin]

/-- A row, repeated on the right. -/
theorem broadcast_row_right (hy : y.shape = [n]) :
    broadcast op (matrix m n f) y = matrix m n fun i j => op (f i j) (y.get [j]) := by
  have hx : (matrix m n f).shape = [m] ++ n :: [] := rfl
  apply ext_matrix (shape_broadcast_channel hx hy) rfl
  intro i j hin
  rw [get_broadcast_channel hx hy hin, get_matrix hin, get_matrix hin]
  rfl

/-- A row, repeated on the left. -/
theorem broadcast_row_left (hx : x.shape = [n]) :
    broadcast op x (matrix m n g) = matrix m n fun i j => op (x.get [j]) (g i j) := by
  have hshape : broadcastShape x.shape (matrix m n g).shape = [m, n] := by
    rw [hx, shape_matrix]
    by_cases hn : n = 1 <;> simp [broadcastShape, hn]
  apply ext_matrix hshape rfl
  intro i j hin
  have hself : alignIndex [m, n] [i, j] = [i, j] := alignIndex_self hin
  have hrow : alignIndex [n] [i, j] = [j] := by
    rcases hin with ⟨-, ⟨hj, hj'⟩, -⟩
    by_cases hn : n = 1
    · have hzero : j = 0 := by omega
      simp [alignIndex, hn, hzero]
    · simp [alignIndex, hn]
  rw [get_broadcast (hshape.symm ▸ hin), hx, shape_matrix, hself, hrow, get_matrix hin,
    get_matrix hin]

/-- A column, repeated on the right. -/
theorem broadcast_column_right :
    broadcast op (matrix m n f) (matrix m 1 g) = matrix m n fun i j => op (f i j) (g i 0) := by
  have hshape : broadcastShape [m, n] [m, 1] = [m, n] := by
    by_cases hn : n = 1 <;> simp [broadcastShape, hn]
  apply ext_matrix hshape rfl
  intro i j hin
  have hin' : Inside (broadcastShape (matrix m n f).shape (matrix m 1 g).shape) [i, j] := by
    rw [shape_matrix, shape_matrix, hshape]
    exact hin
  have hself : alignIndex [m, n] [i, j] = [i, j] := alignIndex_self hin
  have hcolumn : alignIndex [m, 1] [i, j] = [i, 0] := by
    rcases hin with ⟨⟨hi, hi'⟩, -⟩
    by_cases hm : m = 1
    · have hzero : i = 0 := by omega
      simp [alignIndex, hm, hzero]
    · simp [alignIndex, hm]
  have hfirst : Inside [m, 1] [i, 0] := ⟨hin.1, ⟨le_refl 0, Int.one_pos⟩, trivial⟩
  rw [get_broadcast hin', shape_matrix, shape_matrix, hself, hcolumn, get_matrix hin,
    get_matrix hin, get_matrix hfirst]

/-- The same number on the right of every entry. -/
theorem broadcast_number_right {v : R} :
    broadcast op (matrix m n f) (ofFn [] fun _ => v) = matrix m n fun i j => op (f i j) v := by
  have hnumber : (ofFn [] fun _ => v : Tensor R).shape = [] := rfl
  have hget : (ofFn [] fun _ => v : Tensor R).get [] = v := get_ofFn inside_nil
  rw [broadcast_scalar hnumber, hget, map_matrix]

theorem transpose_matrix : (matrix m n f).transpose [1, 0] = matrix n m fun i j => f j i := by
  have horder : IsOrder [1, 0] (matrix m n f).shape.length := by
    have hrank : IsOrder [1, 0] 2 := by decide
    exact hrank
  have hshape : ((matrix m n f).transpose [1, 0]).shape = [n, m] := rfl
  apply ext_matrix hshape rfl
  intro i j hin
  have hback : Inside [m, n] [j, i] := ⟨hin.2.1, hin.1, trivial⟩
  have hturned : ((matrix m n f).transpose [1, 0]).get [i, j] = (matrix m n f).get [j, i] := by
    rw [get_transpose horder rfl]
    rfl
  rw [hturned, get_matrix hback, get_matrix hin]

/-- The tensor of two axes with one number everywhere. -/
theorem fill_matrix {v : R} : (ofFn [m, n] fun _ => v) = matrix m n fun _ _ => v := by
  apply ext_matrix rfl rfl
  intro i j hin
  rw [get_ofFn hin, get_matrix hin]

end Zero

section Ring

variable {R : Type} [NonUnitalNonAssocSemiring R]

theorem mulTransposed_matrix {x w : Tensor R} {m n k : Nat} (hx : x.shape = [m, k])
    (hw : w.shape = [n, k]) : x.mulTransposed w =
      matrix m n fun i j => ∑ l ∈ Finset.range k, x.get [i, l] * w.get [j, l] := by
  apply ext_matrix (shape_mulTransposed hx hw) rfl
  intro i j hin
  rw [get_mulTransposed hx hw hin, get_matrix hin]

end Ring

section Field

variable {K : Type} [Field K]

/-- The mean of the first values. -/
def mean (n : Nat) (f : Int → K) : K := (∑ j ∈ Finset.range n, f j) / n

/-- The means of the rows, as a column. -/
def rowMeans (x : Tensor K) : Tensor K :=
  match x.shape with
  | [m, n] => matrix m 1 fun i _ => mean n fun j => x.get [i, j]
  | _ => default

theorem mean_congr {n : Nat} {f g : Int → K} (h : ∀ j : Nat, j < n → f j = g j) :
    mean n f = mean n g := by
  have hsum : ∑ j ∈ Finset.range n, f j = ∑ j ∈ Finset.range n, g j :=
    Finset.sum_congr rfl fun j hj => h j (Finset.mem_range.mp hj)
  rw [mean, mean, hsum]

theorem rowMeans_matrix {m n : Nat} {f : Int → Int → K} :
    (matrix m n f).rowMeans = matrix m 1 fun i _ => mean n (f i) := by
  apply matrix_congr
  intro i j hin
  apply mean_congr
  intro l hl
  exact get_matrix ⟨hin.1, ⟨Int.natCast_nonneg l, Int.ofNat_lt.mpr hl⟩, trivial⟩

end Field

end Tensor

end Tensors
