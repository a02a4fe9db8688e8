import NnHal.Matrices

/-!
# Reducing tensors along axes

A reduction takes the entries along an axis together; the axis stays behind
with size one.  Broadcasting a reduced tensor against one of the original
shape gives every entry the value of its line.
-/

namespace Tensors

/-! ### Setting a coordinate -/

section Set

variable {shape : List Nat} {index : List Int} {axis : Nat}

/-- A coordinate moved along its axis. -/
theorem Inside.set (h : Inside shape index) {i : Int}
    (hi : 0 ≤ i ∧ i < (shape.getD axis 0 : Nat)) : Inside shape (index.set axis i) := by
  induction shape generalizing index axis with
  | nil =>
      have hlow : i < 0 := by simpa using hi.2
      omega
  | cons d ds ih =>
      cases index with
      | nil => exact h.elim
      | cons j js =>
          rcases h with ⟨hj, hrest⟩
          cases axis with
          | zero => exact ⟨by simpa using hi, hrest⟩
          | succ axis => exact ⟨hj, ih hrest (by simpa using hi)⟩

/-- The first entry of a line is inside the reduced shape. -/
theorem Inside.set_one (h : Inside shape index) :
    Inside (shape.set axis 1) (index.set axis 0) := by
  induction shape generalizing index axis with
  | nil =>
      cases index with
      | nil => trivial
      | cons j js => exact h.elim
  | cons d ds ih =>
      cases index with
      | nil => exact h.elim
      | cons j js =>
          rcases h with ⟨hj, hrest⟩
          cases axis with
          | zero => exact ⟨⟨le_refl 0, by decide⟩, hrest⟩
          | succ axis => exact ⟨hj, ih hrest⟩

/-- From the reduced shape to an entry of the line. -/
theorem Inside.of_set_one {i : Int} (h : Inside (shape.set axis 1) index)
    (hi : 0 ≤ i ∧ i < (shape.getD axis 0 : Nat)) : Inside shape (index.set axis i) := by
  induction shape generalizing index axis with
  | nil =>
      have hlow : i < 0 := by simpa using hi.2
      omega
  | cons d ds ih =>
      cases index with
      | nil => cases axis <;> exact h.elim
      | cons j js =>
          cases axis with
          | zero => exact ⟨by simpa using hi, h.2⟩
          | succ axis => exact ⟨h.1, ih h.2 (by simpa using hi)⟩

/-- An axis of size one takes nothing from the other shape. -/
theorem broadcastShape_set_one (shape : List Nat) (axis : Nat) :
    Tensor.broadcastShape shape (shape.set axis 1) = shape := by
  unfold Tensor.broadcastShape
  simp only [List.length_set, max_self, Nat.sub_self, List.replicate_zero, List.nil_append]
  induction shape generalizing axis with
  | nil => rfl
  | cons d ds ih =>
      cases axis with
      | zero =>
          have hrest : List.zipWith (fun a b => if a = 1 then b else a) ds ds = ds := by
            rw [List.zipWith_self]
            simp
          rw [List.set_cons_zero, List.zipWith_cons_cons, hrest]
          by_cases hd : d = 1 <;> simp [hd]
      | succ axis =>
          rw [List.set_cons_succ, List.zipWith_cons_cons, ih, ite_self]

/-- The reduced tensor is read at the first entry of the line. -/
theorem alignIndex_set_one (h : Inside shape index) :
    Tensor.alignIndex (shape.set axis 1) index = index.set axis 0 := by
  unfold Tensor.alignIndex
  rw [List.length_set, h.length_eq, Nat.sub_self, List.drop_zero]
  induction shape generalizing index axis with
  | nil =>
      cases index with
      | nil => rfl
      | cons j js => exact h.elim
  | cons d ds ih =>
      cases index with
      | nil => exact h.elim
      | cons j js =>
          rcases h with ⟨hj, hrest⟩
          have hself : (if d = 1 then 0 else j) = j := by
            split <;> omega
          cases axis with
          | zero =>
              have halign := Tensor.alignIndex_self hrest
              unfold Tensor.alignIndex at halign
              rw [hrest.length_eq, Nat.sub_self, List.drop_zero] at halign
              rw [List.set_cons_zero, List.set_cons_zero, List.zipWith_cons_cons, halign,
                if_pos rfl]
          | succ axis =>
              rw [List.set_cons_succ, List.set_cons_succ, List.zipWith_cons_cons, ih hrest, hself]

end Set

namespace Tensor

variable {R : Type} [Zero R]

/-- The entries on the line along an axis through an index. -/
def line (axis : Nat) (x : Tensor R) (index : List Int) : List R :=
  (List.range (x.shape.getD axis 0)).map fun (k : Nat) => x.get (index.set axis k)

/-- One entry for every line along an axis. -/
def reduceAxis (f : List R → R) (axis : Nat) (x : Tensor R) : Tensor R :=
  ofFn (x.shape.set axis 1) fun index => f (x.line axis index)

/-- Reduce along several axes, one after the other. -/
def reduceAxes (f : List R → R) (axes : List Nat) (x : Tensor R) : Tensor R :=
  axes.foldl (fun y axis => y.reduceAxis f axis) x

/-- A shape without some of its axes. -/
def dropAxes (axes : List Nat) (shape : List Nat) : List Nat :=
  (shape.zipIdx.filter fun d => d.2 ∉ axes).map (·.1)

/-- A reduction that keeps the axes, or leaves them out. -/
def reduce (f : List R → R) (keepDims : Bool) (axes : List Nat) (x : Tensor R) : Tensor R :=
  let y := x.reduceAxes f axes
  if keepDims then y else y.reshape (dropAxes axes y.shape)

@[simp] theorem shape_reduceAxis (f : List R → R) (axis : Nat) (x : Tensor R) :
    (x.reduceAxis f axis).shape = x.shape.set axis 1 := rfl

theorem get_reduceAxis {f : List R → R} {axis : Nat} {x : Tensor R} {index : List Int}
    (h : Inside (x.shape.set axis 1) index) :
    (x.reduceAxis f axis).get index = f (x.line axis index) := get_ofFn h

/-- Where on its axis an index lies does not matter to its line. -/
@[simp] theorem line_set (axis : Nat) (x : Tensor R) (index : List Int) (i : Int) :
    x.line axis (index.set axis i) = x.line axis index := by
  simp only [line, List.set_set]

variable {f : List R → R} {g : R → R → R} {x y : Tensor R} {axis : Nat}

theorem shape_broadcast_reduceAxis (hshape : y.shape = x.shape) :
    (broadcast g x (y.reduceAxis f axis)).shape = x.shape := by
  rw [shape_broadcast, shape_reduceAxis, hshape, broadcastShape_set_one]

/-- Every entry meets the value of its line. -/
theorem get_broadcast_reduceAxis (hshape : y.shape = x.shape) {index : List Int}
    (h : Inside x.shape index) :
    (broadcast g x (y.reduceAxis f axis)).get index = g (x.get index) (f (y.line axis index)) := by
  have hreduced : Inside (y.shape.set axis 1) (index.set axis 0) := by
    rw [hshape]
    exact h.set_one
  have hin : Inside (broadcastShape x.shape (y.reduceAxis f axis).shape) index := by
    rw [shape_reduceAxis, hshape, broadcastShape_set_one]
    exact h
  rw [get_broadcast hin, alignIndex_self h, shape_reduceAxis, hshape, alignIndex_set_one h,
    get_reduceAxis hreduced, line_set]

theorem broadcast_reduceAxis (hshape : y.shape = x.shape) :
    broadcast g x (y.reduceAxis f axis) =
      ofFn x.shape fun index => g (x.get index) (f (y.line axis index)) := by
  have hsame : (broadcast g x (y.reduceAxis f axis)).shape = x.shape :=
    shape_broadcast_reduceAxis hshape
  refine ext_inside hsame fun index hin => ?_
  rw [hsame] at hin
  rw [get_broadcast_reduceAxis hshape hin, get_ofFn hin]

/-- A function of every line's value. -/
theorem map_reduceAxis (h : R → R) :
    (x.reduceAxis f axis).map h = x.reduceAxis (fun l => h (f l)) axis := by
  refine ext_inside rfl fun index hin => ?_
  replace hin : Inside (x.shape.set axis 1) index := hin
  rw [get_map hin, get_reduceAxis hin, get_reduceAxis hin]

theorem map_ofFn (h : R → R) (shape : List Nat) (entry : List Int → R) :
    (ofFn shape entry).map h = ofFn shape fun index => h (entry index) := by
  refine ext_inside rfl fun index hin => ?_
  replace hin : Inside shape index := hin
  rw [get_map hin, get_ofFn hin, get_ofFn hin]

theorem ofFn_congr {shape : List Nat} {entry entry' : List Int → R}
    (h : ∀ index, Inside shape index → entry index = entry' index) :
    ofFn shape entry = ofFn shape entry' := by
  refine ext_inside rfl fun index hin => ?_
  replace hin : Inside shape index := hin
  rw [get_ofFn hin, get_ofFn hin, h index hin]

/-- A line of entries that a function was applied to. -/
theorem line_map (h : R → R) {index : List Int} (hin : Inside x.shape index) :
    (x.map h).line axis index = (x.line axis index).map h := by
  unfold line
  rw [List.map_map]
  apply List.map_congr_left
  intro k hk
  have hk' : (k : Int) < (x.shape.getD axis 0 : Nat) :=
    Int.ofNat_lt.mpr (List.mem_range.mp hk)
  exact get_map (hin.set ⟨Int.natCast_nonneg k, hk'⟩)

/-- Tensors that agree inside have the same lines. -/
theorem line_congr (hshape : y.shape = x.shape) {index : List Int} (hin : Inside x.shape index)
    {h : R → R} (hget : ∀ other, Inside x.shape other → other.set axis 0 = index.set axis 0 →
      y.get other = h (x.get other)) :
    y.line axis index = (x.line axis index).map h := by
  unfold line
  rw [List.map_map, hshape]
  apply List.map_congr_left
  intro k hk
  have hk' : (k : Int) < (x.shape.getD axis 0 : Nat) :=
    Int.ofNat_lt.mpr (List.mem_range.mp hk)
  exact hget _ (hin.set ⟨Int.natCast_nonneg k, hk'⟩) (by rw [List.set_set])

end Tensor

end Tensors
