import NnHal.Tensors

/-!
# Slices

A slice takes the entries of a tensor between two coordinates of one axis;
concatenation puts tensors one behind the other along an axis.  Joining the
slices a tensor is cut into gives the tensor back.
-/

namespace Tensors

/-! ### Moving a coordinate -/

/-- An index with a coordinate that fits another size of its axis. -/
theorem Inside.modify {shape : List Nat} {index : List Int} {axis size : Nat} {f : Int → Int}
    (h : Inside shape index) (hlow : 0 ≤ f (index.getD axis 0))
    (hhigh : f (index.getD axis 0) < size) :
    Inside (shape.set axis size) (index.modify axis f) := by
  induction shape generalizing index axis with
  | nil =>
      cases index with
      | nil => cases axis <;> trivial
      | cons i is => exact h.elim
  | cons d ds ih =>
      cases index with
      | nil => exact h.elim
      | cons i is =>
          rcases h with ⟨hi, hrest⟩
          cases axis with
          | zero => exact ⟨⟨hlow, hhigh⟩, hrest⟩
          | succ axis => exact ⟨hi, ih hrest hlow hhigh⟩

theorem getD_modify {index : List Int} {axis : Nat} (f : Int → Int) (h : axis < index.length) :
    (index.modify axis f).getD axis 0 = f (index.getD axis 0) := by
  simp [List.getD_eq_getElem?_getD, h]

namespace Tensor

section Zero

variable {R : Type} [Zero R]

/-- The entries whose coordinate on the axis is one of `size` from `start` on. -/
def slice (axis start size : Nat) (x : Tensor R) : Tensor R :=
  ofFn (x.shape.set axis size) fun index => x.get (index.modify axis (· + start))

@[simp] theorem shape_slice (axis start size : Nat) (x : Tensor R) :
    (x.slice axis start size).shape = x.shape.set axis size := rfl

theorem get_slice {axis start size : Nat} {x : Tensor R} {index : List Int}
    (h : Inside (x.shape.set axis size) index) :
    (x.slice axis start size).get index = x.get (index.modify axis (· + start)) := get_ofFn h

/-- The entry of tensors one behind the other. -/
def concatAt (axis : Nat) : List (Tensor R) → List Int → R
  | [], _ => 0
  | x :: xs, index =>
      if index.getD axis 0 < x.shape.getD axis 0 then x.get index
      else concatAt axis xs (index.modify axis (· - x.shape.getD axis 0))

/-- The tensors one behind the other along an axis; the other axes are those of the
first. -/
def concat (axis : Nat) (xs : List (Tensor R)) : Tensor R :=
  ofFn ((xs.headD default).shape.set axis (xs.map fun x => x.shape.getD axis 0).sum)
    (concatAt axis xs)

theorem get_concat {axis : Nat} {xs : List (Tensor R)} {index : List Int}
    (h : Inside (concat axis xs).shape index) :
    (concat axis xs).get index = concatAt axis xs index :=
  get_ofFn h

theorem getD_set_self {shape : List Nat} {axis : Nat} (h : axis < shape.length) (size : Nat) :
    (shape.set axis size).getD axis 0 = size := by
  simp [List.getD_eq_getElem?_getD, h]

theorem set_getD_self {shape : List Nat} {axis : Nat} (h : axis < shape.length) :
    shape.set axis (shape.getD axis 0) = shape := by
  rw [List.getD_eq_getElem _ _ h, List.set_getElem_self]

/-- What a slice reads lies in the tensor. -/
theorem inside_of_slice {shape : List Nat} {axis start size : Nat} {index : List Int}
    (haxis : axis < shape.length) (hbound : start + size ≤ shape.getD axis 0)
    (h : Inside (shape.set axis size) index) : Inside shape (index.modify axis (· + start)) := by
  have hlength := h.length_eq
  rw [List.length_set] at hlength
  obtain ⟨hlow, hhigh⟩ := (inside_iff.mp h).2 axis (by rw [List.length_set]; exact haxis)
  rw [getD_set_self haxis] at hhigh
  have hmoved : Inside ((shape.set axis size).set axis (shape.getD axis 0))
      (index.modify axis (· + start)) := h.modify (by omega) (by omega)
  rwa [List.set_set, set_getD_self haxis] at hmoved

/-- Slices of one size, one behind the other, are read like the tensor. -/
theorem concatAt_slices {axis size : Nat} {x : Tensor R} (n start : Nat) {index : List Int}
    (hin : Inside x.shape (index.modify axis (· + start))) (haxis : axis < x.shape.length)
    (hlow : 0 ≤ index.getD axis 0) (hhigh : index.getD axis 0 < (n * size : Nat)) :
    concatAt axis ((List.range n).map fun k => x.slice axis (start + k * size) size) index =
      x.get (index.modify axis (· + start)) := by
  induction n generalizing start index with
  | zero =>
      rw [Nat.zero_mul] at hhigh
      exact absurd hhigh (not_lt.mpr hlow)
  | succ n ih =>
      have hlength : axis < index.length := by
        have := hin.length_eq
        rw [List.length_modify] at this
        omega
      rw [List.range_succ_eq_map, List.map_cons, List.map_map, concatAt, shape_slice,
        getD_set_self haxis, Nat.zero_mul, Nat.add_zero]
      by_cases hfirst : index.getD axis 0 < size
      · rw [if_pos hfirst]
        apply get_slice
        have hback : (index.modify axis (· + start)).modify axis (· - (start : Int)) = index := by
          rw [List.modify_modify_eq]
          have hid : ((· - (start : Int)) ∘ (· + (start : Int))) = id := by
            funext i
            simp
          rw [hid, List.modify_id]
        have hmoved : ((index.modify axis (· + (start : Int))).getD axis 0) - (start : Int) =
            index.getD axis 0 := by
          rw [getD_modify _ hlength, add_sub_cancel_right]
        rw [← hback]
        exact hin.modify (by rw [hmoved]; exact hlow) (by rw [hmoved]; exact hfirst)
      · rw [if_neg hfirst]
        have hrest : (fun k => x.slice axis (start + k * size) size) ∘ Nat.succ =
            fun k => x.slice axis (start + size + k * size) size := by
          funext k
          rw [Function.comp_apply, Nat.succ_mul]
          congr 1
          omega
        have hmove : (index.modify axis (· - (size : Int))).modify axis
            (· + ((start + size : Nat) : Int)) = index.modify axis (· + (start : Int)) := by
          rw [List.modify_modify_eq]
          congr 1
          funext i
          simp only [Function.comp_apply]
          omega
        have hnext : (index.modify axis (· - (size : Int))).getD axis 0 =
            index.getD axis 0 - size := getD_modify _ hlength
        rw [hrest, ih (start + size), hmove]
        · rw [hmove]
          exact hin
        · rw [hnext]
          omega
        · rw [hnext]
          rw [Nat.succ_mul] at hhigh
          omega

/-- A tensor is its slices of one size, one behind the other. -/
theorem concat_slices {axis size n : Nat} {x : Tensor R} (haxis : axis < x.shape.length)
    (hn : 0 < n) (hsize : x.shape.getD axis 0 = n * size) :
    concat axis ((List.range n).map fun k => x.slice axis (k * size) size) = x := by
  have hfirst : ((List.range n).map fun k => x.slice axis (k * size) size).headD default =
      x.slice axis 0 size := by
    obtain ⟨m, rfl⟩ := Nat.exists_eq_add_one_of_ne_zero hn.ne'
    rw [List.range_succ_eq_map, List.map_cons, List.headD_cons, Nat.zero_mul]
  have hsum : (((List.range n).map fun k => x.slice axis (k * size) size).map fun part =>
      part.shape.getD axis 0).sum = x.shape.getD axis 0 := by
    rw [List.map_map, hsize]
    have hconst : ((fun part : Tensor R => part.shape.getD axis 0) ∘ fun k =>
        x.slice axis (k * size) size) = fun _ => size := by
      funext k
      exact getD_set_self haxis size
    rw [hconst, List.map_const', List.length_range, List.sum_replicate_nat]
  have hshape : (concat axis ((List.range n).map fun k => x.slice axis (k * size) size)).shape =
      x.shape := by
    rw [concat, shape_ofFn, hfirst, hsum, shape_slice, List.set_set, set_getD_self haxis]
  apply ext_inside hshape
  intro index hin
  have hin' : Inside x.shape index := hshape ▸ hin
  have hzero : index.modify axis (· + ((0 : Nat) : Int)) = index := by
    have hid : (fun i : Int => i + ((0 : Nat) : Int)) = id := by
      funext i
      simp
    rw [hid, List.modify_id]
  obtain ⟨hlow, hhigh⟩ := (inside_iff.mp hin').2 axis haxis
  rw [hsize] at hhigh
  have hslices := concatAt_slices n 0 (by rw [hzero]; exact hin') haxis hlow hhigh
  simp only [Nat.zero_add] at hslices
  rw [get_concat hin, hslices, hzero]

/-- What is done to each entry is done to the slices. -/
theorem slice_map {axis start size : Nat} {x : Tensor R} (f : R → R)
    (haxis : axis < x.shape.length) (hbound : start + size ≤ x.shape.getD axis 0) :
    (x.map f).slice axis start size = (x.slice axis start size).map f := by
  have hshape : ((x.map f).slice axis start size).shape =
      ((x.slice axis start size).map f).shape := rfl
  apply ext_inside hshape
  intro index hin
  have hslice : Inside (x.shape.set axis size) index := hin
  have hmap : Inside (x.slice axis start size).shape index := hin
  have hmoved := inside_of_slice haxis hbound hslice
  have hleft : ((x.map f).slice axis start size).get index =
      (x.map f).get (index.modify axis (· + start)) := get_slice hslice
  rw [hleft, get_map hmoved, get_map hmap, get_slice hslice]

end Zero

end Tensor

end Tensors
