import Mathlib.Algebra.BigOperators.Group.Finset.Basic
import Mathlib.Tactic.Ring
import NnHal.Slicing

/-!
# Rows, products and stacks

What the layers that go through time are computed with: the product with a
transposed matrix, the removal of the axes of size one, and tensors of one shape
laid behind each other along a new first axis.
-/

namespace Tensors

/-- Every position is that of an index. -/
theorem flat_unflat {shape : List Nat} {n : Int} (hlow : 0 ≤ n) (hhigh : n < (shape.prod : Nat)) :
    Inside shape (unflat shape n) ∧ flat shape (unflat shape n) = n := by
  induction shape generalizing n with
  | nil =>
      have hzero : n = 0 := by
        rw [List.prod_nil, Nat.cast_one] at hhigh
        omega
      exact ⟨trivial, hzero.symm⟩
  | cons d ds ih =>
      rw [List.prod_cons, Nat.cast_mul] at hhigh
      have hpos : (0 : Int) < (ds.prod : Nat) := by
        by_contra hnot
        have hprod : ((ds.prod : Nat) : Int) = 0 := by omega
        rw [hprod, Int.mul_zero] at hhigh
        omega
      obtain ⟨hin, hflat⟩ := ih (Int.emod_nonneg n hpos.ne') (Int.emod_lt_of_pos n hpos)
      refine ⟨⟨⟨Int.ediv_nonneg hlow hpos.le, Int.ediv_lt_of_lt_mul hpos hhigh⟩, hin⟩, ?_⟩
      rw [unflat, flat, hflat]
      exact Int.ediv_mul_add_emod n _

/-- Sizes that broadcast: aligned at their last axes, they agree or one is one. -/
def Broadcastable (s t : List Nat) : Prop :=
  ∀ k, s.reverse.getD k 1 = t.reverse.getD k 1 ∨ s.reverse.getD k 1 = 1 ∨ t.reverse.getD k 1 = 1

theorem broadcastable_self (s : List Nat) : Broadcastable s s := fun _ => .inl rfl

/-- A vector broadcasts to the last axis. -/
theorem broadcastable_vector (before : List Nat) (n : Nat) : Broadcastable (before ++ [n]) [n] := by
  intro k
  cases k with
  | zero => exact .inl (by simp)
  | succ k => exact .inr (.inr (by simp))

theorem Broadcastable.symm {s t : List Nat} (h : Broadcastable s t) : Broadcastable t s := by
  intro k
  rcases h k with heq | hs | ht
  · exact .inl heq.symm
  · exact .inr (.inr hs)
  · exact .inr (.inl ht)

/-- Leading axes of size one do not change the sizes counted from the last axis. -/
theorem getD_reverse_padded (n : Nat) (s : List Nat) (k : Nat) :
    (List.replicate n 1 ++ s).reverse.getD k 1 = s.reverse.getD k 1 := by
  rw [List.reverse_append, List.reverse_replicate]
  by_cases hk : k < s.reverse.length
  · rw [List.getD_append _ _ _ _ hk]
  · have hle : s.reverse.length ≤ k := Nat.le_of_not_lt hk
    rw [List.getD_append_right _ _ _ _ hle, List.getD_eq_default _ _ hle]
    by_cases hn : k - s.reverse.length < n
    · exact List.getD_replicate _ hn
    · exact List.getD_eq_default _ _ (by rw [List.length_replicate]; omega)

theorem length_broadcastShape (s t : List Nat) :
    (Tensor.broadcastShape s t).length = max s.length t.length := by
  simp only [Tensor.broadcastShape, List.length_zipWith, List.length_append, List.length_replicate]
  omega

/-- The sizes of a broadcast shape, counted from the last axis. -/
theorem getD_reverse_broadcastShape (s t : List Nat) (k : Nat) :
    (Tensor.broadcastShape s t).reverse.getD k 1 =
      if s.reverse.getD k 1 = 1 then t.reverse.getD k 1 else s.reverse.getD k 1 := by
  have hsame : (List.replicate (max s.length t.length - s.length) 1 ++ s).length =
      (List.replicate (max s.length t.length - t.length) 1 ++ t).length := by
    simp only [List.length_append, List.length_replicate]
    omega
  rw [← getD_reverse_padded (max s.length t.length - s.length) s,
    ← getD_reverse_padded (max s.length t.length - t.length) t, Tensor.broadcastShape,
    List.reverse_zipWith hsame]
  have hzip : ∀ (l l' : List Nat) (k : Nat), l.length = l'.length →
      (List.zipWith (fun a b => if a = 1 then b else a) l l').getD k 1 =
        if l.getD k 1 = 1 then l'.getD k 1 else l.getD k 1 := by
    intro l l' k hlength
    by_cases hk : k < l.length
    · simp [List.getD_eq_getElem?_getD, List.getElem?_zipWith, List.getElem?_eq_getElem hk,
        List.getElem?_eq_getElem (hlength ▸ hk)]
    · have hout : l.length ≤ k := Nat.le_of_not_lt hk
      rw [List.getD_eq_default l _ hout, List.getD_eq_default l' _ (hlength ▸ hout), if_pos rfl]
      exact List.getD_eq_default _ _ (by rw [List.length_zipWith]; omega)
  exact hzip _ _ k (by rw [List.length_reverse, List.length_reverse, hsame])

/-- A shape broadcasts to another one and leaves it as it is when it has no more axes and
each of them is of size one or the same. -/
theorem broadcastShape_eq_left_iff (s t : List Nat) :
    Broadcastable s t ∧ Tensor.broadcastShape s t = s ↔
      t.length ≤ s.length ∧
        ∀ k, t.reverse.getD k 1 = 1 ∨ t.reverse.getD k 1 = s.reverse.getD k 1 := by
  constructor
  · intro hboth
    rcases hboth with ⟨hfits, hsame⟩
    have hrank := length_broadcastShape s t
    rw [hsame] at hrank
    refine ⟨by omega, fun k => ?_⟩
    have hsize := getD_reverse_broadcastShape s t k
    rw [hsame] at hsize
    rcases hfits k with heq | hs | ht
    · exact .inr heq.symm
    · rw [if_pos hs] at hsize
      exact .inr hsize.symm
    · exact .inl ht
  · intro hboth
    rcases hboth with ⟨hrank, hall⟩
    have hfits : Broadcastable s t := by
      intro k
      rcases hall k with hone | heq
      · exact .inr (.inr hone)
      · exact .inl heq.symm
    refine ⟨hfits, ?_⟩
    have hlength : (Tensor.broadcastShape s t).length = s.length := by
      rw [length_broadcastShape]
      omega
    have hreverse : (Tensor.broadcastShape s t).reverse = s.reverse := by
      apply List.ext_getElem (by simpa using hlength)
      intro k hk hk'
      have hsize := getD_reverse_broadcastShape s t k
      have hkeep : (if s.reverse.getD k 1 = 1 then t.reverse.getD k 1 else s.reverse.getD k 1) =
          s.reverse.getD k 1 := by
        split
        · next hs =>
          rcases hall k with hone | heq
          · rw [hone, hs]
          · exact heq
        · rfl
      rw [hkeep, List.getD_eq_getElem _ _ hk, List.getD_eq_getElem _ _ hk'] at hsize
      exact hsize
    exact List.reverse_injective hreverse

/-- Shapes that differ at one axis only. -/
def Joinable (axis : Nat) (shapes : List (List Nat)) : Prop :=
  ∃ before after : List Nat, before.length = axis ∧ ∀ s ∈ shapes, ∃ d, s = before ++ d :: after

namespace Tensor

section Zero

variable {R : Type} [Zero R]

/-- Two reshapes are the last one. -/
theorem reshape_reshape {x : Tensor R} {s t : List Nat} (hs : s.prod = x.shape.prod)
    (ht : t.prod = s.prod) : (x.reshape s).reshape t = x.reshape t := by
  have hshape : ((x.reshape s).reshape t).shape = (x.reshape t).shape := rfl
  apply ext_inside hshape
  intro index hin
  have hin' : Inside t index := hin
  obtain ⟨hlow, hhigh⟩ := flat_bounds hin'
  have hhigh' : flat t index < (s.prod : Nat) := ht ▸ hhigh
  have hhigh'' : flat t index < (x.shape.prod : Nat) := hs ▸ hhigh'
  obtain ⟨hmiddle, hflat⟩ := flat_unflat hlow hhigh'
  obtain ⟨hsource, hflat'⟩ := flat_unflat hlow hhigh''
  have hfirst : ((x.reshape s).reshape t).get index = (x.reshape s).get _ :=
    get_reshape hin' hmiddle hflat.symm
  rw [hfirst, get_reshape hmiddle hsource (hflat.trans hflat'.symm),
    get_reshape hin' hsource hflat'.symm]

theorem reshape_self (x : Tensor R) : x.reshape x.shape = x := by
  have hshape : (x.reshape x.shape).shape = x.shape := rfl
  exact ext_inside hshape fun index hin => get_reshape hin hin rfl

/-- The tensor without its axes of size one. -/
def squeeze (x : Tensor R) : Tensor R := x.reshape (x.shape.filter (· ≠ 1))

@[simp] theorem shape_squeeze (x : Tensor R) : x.squeeze.shape = x.shape.filter (· ≠ 1) := rfl

theorem prod_filter_ne_one (shape : List Nat) : (shape.filter (· ≠ 1)).prod = shape.prod := by
  induction shape with
  | nil => rfl
  | cons d ds ih =>
      by_cases hd : d = 1
      · simpa [hd] using ih
      · simpa [hd] using congrArg (d * ·) ih

/-- A first axis of size one is removed in any case. -/
theorem squeeze_reshape {x : Tensor R} {rest : List Nat} (hx : x.shape = 1 :: rest) :
    (x.reshape rest).squeeze = x.squeeze := by
  have hprod : rest.prod = x.shape.prod := by rw [hx, List.prod_cons, Nat.one_mul]
  have hfilter : x.shape.filter (· ≠ 1) = rest.filter (· ≠ 1) := by
    rw [hx]
    simp
  rw [squeeze, shape_reshape, reshape_reshape hprod (prod_filter_ne_one rest), squeeze, hfilter]

/-- Two tensors of one shape, entry by entry. -/
theorem get_broadcast_same {f : R → R → R} {x y : Tensor R} (h : y.shape = x.shape)
    {index : List Int} (hin : Inside x.shape index) :
    (broadcast f x y).get index = f (x.get index) (y.get index) := by
  have hself : broadcastShape x.shape y.shape = x.shape := by rw [h, broadcastShape_self]
  have hin' : Inside y.shape index := h ▸ hin
  rw [get_broadcast (hself.symm ▸ hin), alignIndex_self hin, alignIndex_self hin']

theorem shape_broadcast_same {f : R → R → R} {x y : Tensor R} (h : y.shape = x.shape) :
    (broadcast f x y).shape = x.shape := by rw [shape_broadcast, h, broadcastShape_self]

/-- A row may lack its axis of size one. -/
theorem broadcast_row {f : R → R → R} {x y : Tensor R} {n : Nat} (hx : x.shape = [1, n])
    (hy : y.shape = [1, n]) : broadcast f (x.reshape [n]) y = broadcast f x y := by
  have hrow : broadcastShape [n] [1, n] = [1, n] := by
    by_cases hn : n = 1 <;> simp [broadcastShape, hn]
  have hboth : broadcastShape [1, n] [1, n] = [1, n] := broadcastShape_self _
  have hshape : (broadcast f (x.reshape [n]) y).shape = (broadcast f x y).shape := by
    rw [shape_broadcast, shape_broadcast, shape_reshape, hx, hy, hrow, hboth]
  apply ext_inside hshape
  intro index hin
  rw [hshape, shape_broadcast, hx, hy, hboth] at hin
  have hin' : Inside (broadcastShape (x.reshape [n]).shape y.shape) index := by
    rw [shape_reshape, hy, hrow]
    exact hin
  match index, hin with
  | [i, j], ⟨⟨hi, hi'⟩, ⟨hj, hj'⟩, _⟩ =>
    have hzero : i = 0 := by omega
    subst hzero
    have hsource : Inside x.shape [0, j] := by
      rw [hx]
      exact ⟨⟨hi, hi'⟩, ⟨hj, hj'⟩, trivial⟩
    have halign : alignIndex [n] [0, j] = [j] := by
      by_cases hn : n = 1
      · have hj0 : j = 0 := by omega
        simp [alignIndex, hn, hj0]
      · simp [alignIndex, hn]
    have hj'' : Inside [n] [j] := ⟨⟨hj, hj'⟩, trivial⟩
    have hvector : (x.reshape [n]).get [j] = x.get [0, j] :=
      get_reshape hj'' hsource (by rw [hx]; simp [flat])
    have hself : alignIndex y.shape [0, j] = [0, j] := alignIndex_self (by rwa [hy, ← hx])
    rw [get_broadcast hin', shape_reshape, halign, hvector,
      get_broadcast_same (hy.trans hx.symm) hsource, hself]

/-! ### One behind the other -/

/-- Tensors of one shape along a new first axis. -/
def stack (shape : List Nat) (xs : List (Tensor R)) : Tensor R :=
  ofFn (xs.length :: shape) fun
    | [] => 0
    | i :: index => (xs.getD i.toNat default).get index

@[simp] theorem shape_stack (shape : List Nat) (xs : List (Tensor R)) :
    (stack shape xs).shape = xs.length :: shape := rfl

theorem get_stack {shape : List Nat} {xs : List (Tensor R)} {t : Nat} {index : List Int}
    (ht : t < xs.length) (h : Inside shape index) :
    (stack shape xs).get ((t : Int) :: index) = xs[t].get index := by
  have hin : Inside (xs.length :: shape) ((t : Int) :: index) :=
    ⟨⟨Int.natCast_nonneg t, Int.ofNat_lt.mpr ht⟩, h⟩
  have hget : (stack shape xs).get ((t : Int) :: index) =
      (xs.getD (t : Int).toNat default).get index := get_ofFn hin
  rw [hget, Int.toNat_natCast, List.getD_eq_getElem _ _ ht]

/-- Tensors of one shape, one behind the other along their first axis, are read at
the tensor of the position. -/
theorem concatAt_rows {xs : List (Tensor R)} {size : Nat} {rest : List Nat}
    (hall : ∀ x ∈ xs, x.shape = size :: rest) {t : Nat} (ht : t < xs.length) {n : Int}
    {index : List Int} (hlow : 0 ≤ n) (hhigh : n < size) :
    concatAt 0 xs ((t * size + n) :: index) = xs[t].get (n :: index) := by
  induction xs generalizing t with
  | nil => exact absurd ht (Nat.not_lt_zero t)
  | cons x xs ih =>
      have hsize : x.shape.getD 0 0 = size := by rw [hall x List.mem_cons_self, List.getD_cons_zero]
      rw [concatAt, hsize, List.getD_cons_zero]
      cases t with
      | zero =>
          have hfirst : ((0 : Nat) : Int) * size + n = n := by simp
          rw [hfirst, if_pos hhigh]
          rfl
      | succ t =>
          have hlater : ¬ ((t + 1 : Nat) : Int) * size + n < size := by
            have hnonneg : 0 ≤ (t : Int) * size :=
              Int.mul_nonneg (Int.natCast_nonneg t) (Int.natCast_nonneg size)
            push_cast
            rw [Int.add_mul, Int.one_mul]
            omega
          have hback : ((t + 1 : Nat) : Int) * size + n - size = t * size + n := by
            push_cast
            rw [Int.add_mul, Int.one_mul]
            omega
          rw [if_neg hlater, List.modify_zero_cons, hback]
          exact ih (fun y hy => hall y (List.mem_cons_of_mem _ hy)) (Nat.lt_of_succ_lt_succ ht)

/-- What is joined along the first axis, with that axis split again. -/
theorem reshape_concat {xs : List (Tensor R)} {size : Nat} {rest : List Nat}
    (hall : ∀ x ∈ xs, x.shape = size :: rest) (hne : xs ≠ []) :
    (concat 0 xs).shape = (xs.length * size) :: rest ∧
      (concat 0 xs).reshape (xs.length :: size :: rest) = stack (size :: rest) xs := by
  have hshape : (concat 0 xs).shape = (xs.length * size) :: rest := by
    have hhead : (xs.headD default).shape = size :: rest := by
      cases xs with
      | nil => exact absurd rfl hne
      | cons x xs => exact hall x List.mem_cons_self
    have hsizes : (xs.map fun x => x.shape.getD 0 0) = xs.map fun _ => size :=
      List.map_congr_left fun x hx => by rw [hall x hx, List.getD_cons_zero]
    rw [concat, shape_ofFn, hhead, hsizes, List.map_const', List.sum_replicate_nat,
      List.set_cons_zero]
  refine ⟨hshape, ?_⟩
  have hsame : ((concat 0 xs).reshape (xs.length :: size :: rest)).shape =
      (stack (size :: rest) xs).shape := rfl
  apply ext_inside hsame
  intro index hin
  have hin' : Inside (xs.length :: size :: rest) index := hin
  rcases index with _ | ⟨i, _ | ⟨n, index⟩⟩
  · exact hin'.elim
  · exact hin'.2.elim
  · rcases hin' with ⟨⟨hi, hi'⟩, ⟨hn, hn'⟩, hrest⟩
    obtain ⟨t, rfl⟩ := Int.eq_ofNat_of_zero_le hi
    have ht : t < xs.length := Int.ofNat_lt.mp hi'
    have hsource : Inside (concat 0 xs).shape ((t * size + n) :: index) := by
      rw [hshape]
      have hstart : 0 ≤ (t : Int) * size :=
        Int.mul_nonneg (Int.natCast_nonneg t) (Int.natCast_nonneg size)
      refine ⟨⟨Int.add_nonneg hstart hn, ?_⟩, hrest⟩
      have hnext : ((t : Int) + 1) * size ≤ (xs.length : Int) * size :=
        Int.mul_le_mul_of_nonneg_right (by omega) (Int.natCast_nonneg size)
      rw [Int.add_mul, Int.one_mul] at hnext
      push_cast
      omega
    have hflat : flat (xs.length :: size :: rest) ((t : Int) :: n :: index) =
        flat (concat 0 xs).shape ((t * size + n) :: index) := by
      rw [hshape]
      simp only [flat, List.prod_cons]
      push_cast
      ring
    have hrow : Inside (size :: rest) (n :: index) := ⟨⟨hn, hn'⟩, hrest⟩
    have hinside : Inside (xs.length :: size :: rest) ((t : Int) :: n :: index) := hin
    rw [get_reshape hinside hsource hflat, get_concat hsource, get_stack ht hrow]
    exact concatAt_rows hall ht hn hn'

/-! ### A moment of a sequence -/

/-- The matrix of a moment in a tensor whose first axis is time, or the second one
where the batch comes first. -/
def atTime (timeMajor : Bool) (x : Tensor R) (t : Nat) : Tensor R :=
  match x.shape with
  | [d, e, k] =>
      ofFn [if timeMajor then e else d, k] fun
        | [n, i] => x.get (if timeMajor then [(t : Int), n, i] else [n, (t : Int), i])
        | _ => 0
  | _ => default

/-- The shape of such a tensor. -/
def sequenceShape (timeMajor : Bool) (times batch width : Nat) : List Nat :=
  if timeMajor then [times, batch, width] else [batch, times, width]

section Moments

variable {timeMajor : Bool} {times batch width : Nat} {x : Tensor R}

theorem shape_atTime (hx : x.shape = sequenceShape timeMajor times batch width) (t : Nat) :
    (x.atTime timeMajor t).shape = [batch, width] := by
  cases timeMajor <;> simp [atTime, hx, sequenceShape]

theorem get_atTime (hx : x.shape = sequenceShape timeMajor times batch width) (t : Nat) {n i : Int}
    (hin : Inside [batch, width] [n, i]) :
    (x.atTime timeMajor t).get [n, i] =
      x.get (if timeMajor then [(t : Int), n, i] else [n, (t : Int), i]) := by
  have hget : (x.atTime timeMajor t).get [n, i] =
      (ofFn [batch, width] fun
        | [n, i] => x.get (if timeMajor then [(t : Int), n, i] else [n, (t : Int), i])
        | _ => 0).get [n, i] := by
    cases timeMajor <;> simp [atTime, hx, sequenceShape]
  rw [hget, get_ofFn hin]

/-- A matrix by its entries. -/
theorem ext_matrix {y z : Tensor R} {m n : Nat} (hy : y.shape = [m, n]) (hz : z.shape = [m, n])
    (h : ∀ i j, Inside [m, n] [i, j] → y.get [i, j] = z.get [i, j]) : y = z := by
  apply ext_inside (hy.trans hz.symm)
  intro index hin
  rw [hy] at hin
  match index, hin with
  | [i, j], hin => exact h i j hin

/-- A slice of one moment, without its axis. -/
theorem reshape_slice (hx : x.shape = [times, batch, width]) (t : Nat) :
    (x.slice 0 (t * 1) 1).reshape [batch, width] = x.atTime true t := by
  have hmoment : (x.atTime true t).shape = [batch, width] := shape_atTime hx t
  apply ext_matrix rfl hmoment
  intro n i hin
  have hentry : (x.atTime true t).get [n, i] = x.get [(t : Int), n, i] := get_atTime hx t hin
  have hslice : Inside (x.shape.set 0 1) [0, n, i] := by
    rw [hx]
    exact ⟨⟨by omega, by omega⟩, hin⟩
  have hflat : flat [batch, width] [n, i] = flat (x.slice 0 (t * 1) 1).shape [0, n, i] := by
    rw [shape_slice, hx]
    simp [flat]
  rw [get_reshape hin hslice hflat, get_slice hslice, hentry]
  simp

theorem get_transpose_time (hx : x.shape.length = 3) (i j k : Int) :
    (x.transpose [1, 0, 2]).get [i, j, k] = x.get [j, i, k] := by
  have horder : IsOrder [1, 0, 2] x.shape.length := by
    rw [hx]
    decide
  rw [get_transpose horder (by rw [hx]; rfl)]
  rfl

/-- Time and batch change places. -/
theorem atTime_transpose (hx : x.shape = sequenceShape timeMajor times batch width) (t : Nat) :
    (x.transpose [1, 0, 2]).shape = sequenceShape (!timeMajor) times batch width ∧
      (x.transpose [1, 0, 2]).atTime (!timeMajor) t = x.atTime timeMajor t := by
  have hshape : (x.transpose [1, 0, 2]).shape = sequenceShape (!timeMajor) times batch width := by
    rw [shape_transpose, hx]
    cases timeMajor <;> rfl
  have hrank : x.shape.length = 3 := by
    rw [hx]
    cases timeMajor <;> rfl
  refine ⟨hshape, ext_matrix (shape_atTime hshape t) (shape_atTime hx t) fun n i hin => ?_⟩
  rw [get_atTime hshape t hin, get_atTime hx t hin]
  cases timeMajor
  · exact get_transpose_time hrank _ _ _
  · exact get_transpose_time hrank _ _ _

/-- A sequence by its moments. -/
theorem ext_moments {y : Tensor R} (hx : x.shape = sequenceShape timeMajor times batch width)
    (hy : y.shape = sequenceShape timeMajor times batch width)
    (h : ∀ t < times, x.atTime timeMajor t = y.atTime timeMajor t) : x = y := by
  apply ext_inside (hx.trans hy.symm)
  intro index hin
  rw [hx] at hin
  have hentry : ∀ t < times, ∀ n i, Inside [batch, width] [n, i] →
      x.get (if timeMajor then [(t : Int), n, i] else [n, (t : Int), i]) =
        y.get (if timeMajor then [(t : Int), n, i] else [n, (t : Int), i]) := by
    intro t ht n i hmatrix
    rw [← get_atTime hx t hmatrix, ← get_atTime hy t hmatrix, h t ht]
  cases timeMajor
  · match index, hin with
    | [n, t, i], ⟨hn, ⟨ht, ht'⟩, hi⟩ =>
      obtain ⟨k, rfl⟩ := Int.eq_ofNat_of_zero_le ht
      exact hentry k (Int.ofNat_lt.mp ht') n i ⟨hn, hi⟩
  · match index, hin with
    | [t, n, i], ⟨⟨ht, ht'⟩, hmatrix⟩ =>
      obtain ⟨k, rfl⟩ := Int.eq_ofNat_of_zero_le ht
      exact hentry k (Int.ofNat_lt.mp ht') n i hmatrix

/-- The moments in the other order. -/
def reverseTime (timeMajor : Bool) (times : Nat) (x : Tensor R) : Tensor R :=
  ofFn x.shape fun
    | [i, j, k] => x.get (if timeMajor then [times - 1 - i, j, k] else [i, times - 1 - j, k])
    | _ => 0

@[simp] theorem shape_reverseTime (timeMajor : Bool) (times : Nat) (x : Tensor R) :
    (x.reverseTime timeMajor times).shape = x.shape := rfl

theorem atTime_reverseTime (hx : x.shape = sequenceShape timeMajor times batch width) {t : Nat}
    (ht : t < times) :
    (x.reverseTime timeMajor times).atTime timeMajor t = x.atTime timeMajor (times - 1 - t) := by
  have hback : ((times - 1 - t : Nat) : Int) = times - 1 - t := by omega
  have hrange : 0 ≤ (t : Int) ∧ (t : Int) < times := by omega
  refine ext_matrix (shape_atTime (x := x.reverseTime timeMajor times) hx t) (shape_atTime hx _)
    fun n i hin => ?_
  rw [get_atTime (x := x.reverseTime timeMajor times) hx t hin, get_atTime hx _ hin, hback]
  cases timeMajor
  · have hentry : Inside x.shape [n, (t : Int), i] := by
      rw [hx]
      exact ⟨hin.1, hrange, hin.2⟩
    exact get_ofFn hentry
  · have hentry : Inside x.shape [(t : Int), n, i] := by
      rw [hx]
      exact ⟨hrange, hin⟩
    exact get_ofFn hentry

/-- A moment of a stack. -/
theorem atTime_stack {xs : List (Tensor R)} (hall : ∀ y ∈ xs, y.shape = [batch, width]) {t : Nat}
    (ht : t < xs.length) : (stack [batch, width] xs).atTime true t = xs[t] := by
  have hshape : (stack [batch, width] xs).shape = sequenceShape true xs.length batch width := rfl
  apply ext_matrix (shape_atTime hshape t) (hall _ (List.getElem_mem ht))
  intro n i hin
  rw [get_atTime hshape t hin]
  exact get_stack ht hin

/-- The moments of a stack, with time where the layout has it. -/
theorem moments_stack {xs : List (Tensor R)} (hall : ∀ y ∈ xs, y.shape = [batch, width])
    {y : Tensor R} (hy : y = if timeMajor then stack [batch, width] xs
      else (stack [batch, width] xs).transpose [1, 0, 2]) :
    y.shape = sequenceShape timeMajor xs.length batch width ∧
      ∀ (t : Nat) (ht : t < xs.length), y.atTime timeMajor t = xs[t] := by
  have hshape : (stack [batch, width] xs).shape = sequenceShape true xs.length batch width := rfl
  subst hy
  cases timeMajor
  · obtain ⟨hturned, -⟩ := atTime_transpose hshape 0
    refine ⟨hturned, fun t ht => ?_⟩
    exact (atTime_transpose hshape t).2.trans (atTime_stack hall ht)
  · exact ⟨hshape, fun t ht => atTime_stack hall ht⟩

end Moments

end Zero

/-! ### Products -/

section Ring

variable {R : Type} [NonUnitalNonAssocSemiring R]

/-- A matrix times a transposed one. -/
def mulTransposed (x w : Tensor R) : Tensor R :=
  match x.shape, w.shape with
  | [m, k], [n, _] =>
      ofFn [m, n] fun
        | [i, j] => ∑ l ∈ Finset.range k, x.get [i, l] * w.get [j, l]
        | _ => 0
  | _, _ => default

variable {x w : Tensor R} {m n k : Nat}

theorem shape_mulTransposed (hx : x.shape = [m, k]) (hw : w.shape = [n, k]) :
    (x.mulTransposed w).shape = [m, n] := by
  simp only [mulTransposed, hx, hw, shape_ofFn]

theorem get_mulTransposed (hx : x.shape = [m, k]) (hw : w.shape = [n, k]) {i j : Int}
    (hin : Inside [m, n] [i, j]) :
    (x.mulTransposed w).get [i, j] = ∑ l ∈ Finset.range k, x.get [i, l] * w.get [j, l] := by
  simp only [mulTransposed, hx, hw]
  exact get_ofFn hin

end Ring

end Tensor

end Tensors
