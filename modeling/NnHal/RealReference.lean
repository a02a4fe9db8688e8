import NnHal.LayerMeanings

/-!
# A meaning over the real numbers

`realReference` computes every operation that the results about models use, as
ngraph documents it, and its parameters hold given tensors.
-/

namespace NnHal

open Command Tensors Quantization

/-- What an operation without inputs gives. -/
noncomputable def realConstant (inputs : Nat → Tensor ℝ) : NodeOp → Tensor ℝ
  | .parameter operand _ _ => inputs operand
  | .constant _ shape scalars => constantTensor shape scalars
  | _ => default

/-- What the operations on one tensor give that no table lists. -/
noncomputable def realUnary : NodeOp → Tensor ℝ → Tensor ℝ
  | .convert _, x => x
  | .roundHalfToEven, x => x.map fun v => (roundHalfEven v : ℝ)
  | .clamp low high, x => x.map fun v => min (max v low.real) high.real
  | .spaceToDepth b, x => x.gatherBlocks 1 b b
  | .depthToSpace b, x => x.spreadBlocks 1 b b
  | .shuffleChannels axis group, x => x.shuffle axis.toNat group.toNat
  | .avgPool attrs _, x => attrs.pool average (x.shape.getD 2 0) (x.shape.getD 3 0) x
  | .maxPool attrs, x => attrs.pool largest (x.shape.getD 2 0) (x.shape.getD 3 0) x
  | _, _ => default

/-- The axes of size one that `Unsqueeze` adds: one at a position, or some behind those of the
tensor. -/
noncomputable def unsqueezed (x axes : Tensor ℝ) : Tensor ℝ :=
  if axes.shape = [] then
    x.reshape (x.shape.insertIdx (normalAxis (x.shape.length + 1) ⌊axes.get []⌋) 1)
  else x.reshape (x.shape ++ List.replicate (axes.shape.getD 0 0) 1)

/-- A part of the axis that a tensor without axes names. -/
noncomputable def part (count k : Nat) (x axis : Tensor ℝ) : Tensor ℝ :=
  let along := normalAxis x.shape.length ⌊axis.get []⌋
  let size := x.shape.getD along 0 / count
  x.slice along (k * size) size

/-- What the operations on two tensors give that no table lists. -/
noncomputable def realBinary : NodeOp → Tensor ℝ → Tensor ℝ → Nat → Tensor ℝ
  | .transpose, x, order, _ => x.transpose (naturals order)
  | .reshape true, x, target, _ => x.reshape (Tensor.specialZero x.shape (naturals target))
  | .reshape false, x, target, _ => x.reshape (naturals target)
  | .squeeze, x, axes, _ =>
      x.reshape (Tensor.dropAxes ((integers axes).map (normalAxis x.shape.length)) x.shape)
  | .unsqueeze, x, axes, _ => unsqueezed x axes
  | .split count, x, axis, k => part count k x axis
  | .matMul false true, x, w, _ => x.mulTransposed w
  | .convolution attrs, x, f, _ =>
      Tensor.convolve (attrs.window 0 (x.shape.getD 2 0) (f.shape.getD 2 0))
        (attrs.window 1 (x.shape.getD 3 0) (f.shape.getD 3 0)) x f
  | .groupConvolution attrs, x, f, _ =>
      Tensor.groupConvolve (attrs.window 0 (x.shape.getD 2 0) (f.shape.getD 3 0))
        (attrs.window 1 (x.shape.getD 3 0) (f.shape.getD 4 0)) x f
  | _, _, _, _ => default

/-- What the operations on three tensors give. -/
noncomputable def realTernary : NodeOp → Tensor ℝ → Tensor ℝ → Tensor ℝ → Tensor ℝ
  | .select, c, x, y =>
      Tensor.ofFn x.shape fun index => if c.get index ≠ 0 then x.get index else y.get index
  | .gather, x, positions, axis =>
      x.choose (normalAxis x.shape.length ⌊axis.get []⌋) positions.shape fun i => ⌊positions.get i⌋
  | .pad, x, heads, tails => x.pad (naturals heads) (naturals tails) 0
  | _, _, _, _ => default

/-- What the operations on four tensors give. -/
noncomputable def realQuaternary : NodeOp → Tensor ℝ → Tensor ℝ → Tensor ℝ → Tensor ℝ → Tensor ℝ
  | .pad, x, heads, tails, v => x.pad (naturals heads) (naturals tails) (v.get [])
  | .spaceToBatch, x, block, _, _ =>
      x.gatherBlocks 0 ((naturals block).getD 2 1) ((naturals block).getD 3 1)
  | .batchToSpace, x, block, _, _ =>
      x.spreadBlocks 0 ((naturals block).getD 2 1) ((naturals block).getD 3 1)
  | _, _, _, _, _ => default

/-- What the operations on one tensor give. -/
noncomputable def realOne (op : NodeOp) (x : Tensor ℝ) : Tensor ℝ :=
  match op.entrywise with
  | some f => x.map f.apply
  | none => realUnary op x

/-- What the operations on two tensors give. -/
noncomputable def realTwo (op : NodeOp) (x y : Tensor ℝ) (k : Nat) : Tensor ℝ :=
  match op.pairwise, op.reduction with
  | some f, _ => Tensor.broadcast f.apply x y
  | none, some (keepDims, f) =>
      x.reduce f.apply keepDims ((integers y).map (normalAxis x.shape.length))
  | none, none => realBinary op x y k

/-- A meaning of the operations over the real numbers. -/
noncomputable def realReference (inputs : Nat → Tensor ℝ) : Meaning ℝ := fun op args k =>
  match op, args with
  | .concat axis, xs => Tensor.concat axis.toNat xs
  | op, [] => realConstant inputs op
  | op, [x] => realOne op x
  | op, [x, y] => realTwo op x y k
  | op, [x, y, z] => realTernary op x y z
  | op, [x, y, z, v] => realQuaternary op x y z v
  | _, _ => default

section Reference

variable {inputs : Nat → Tensor ℝ}

theorem integers_ofList (values : List Int) :
    integers (Tensor.ofList (values.map fun (a : Int) => (a : ℝ))) = values := by
  apply List.ext_getElem
  · simp [integers, Tensor.ofList]
  · intro k hk hk'
    have hin : Inside [(values.map fun (a : Int) => (a : ℝ)).length] [(k : Int)] := by
      simp [hk']
    simp only [integers, List.getElem_map, List.getElem_range]
    rw [Tensor.ofList, Tensor.get_ofFn hin]
    simp [List.getD_eq_getElem?_getD, hk']

theorem constantTensor_ofList (values : List Int) :
    constantTensor [values.length] (values.map .int) =
      Tensor.ofList (values.map fun (v : Int) => (v : ℝ)) := by
  apply Tensor.ofFn_eq_ofList (List.length_map _)
  intro i hi
  simp [flat, List.getD_eq_getElem?_getD, hi, real_int]

/-- The integer of a constant without axes. -/
theorem floor_constantTensor (axis : Int) : ⌊(constantTensor [] [.int axis]).get []⌋ = axis := by
  have hentry : (constantTensor [] [.int axis]).get [] = (axis : ℝ) :=
    (Tensor.get_ofFn inside_nil).trans (real_int axis)
  rw [hentry, Int.floor_intCast]

theorem realReference_transposes : (realReference inputs).Transposes where
  constant _ values := constantTensor_ofList values
  transpose x order _ := by
    simp only [realReference, realTwo, NodeOp.pairwise, NodeOp.reduction, realBinary,
      naturals_ofList]

theorem realReference_addsBias : (realReference inputs).AddsBias where
  reshape x target := by
    simp only [realReference, realTwo, NodeOp.pairwise, NodeOp.reduction, realBinary,
      naturals_ofList]
  add _ _ := rfl
  relu _ := rfl
  clamp _ _ _ := rfl

/-- The tables do not overlap. -/
theorem pairwise_of_reduction {op : NodeOp} {r : Bool × Reduction} (h : op.reduction = some r) :
    op.pairwise = none := by
  cases op <;> first | rfl | cases h

theorem realReference_entrywise {op : NodeOp} {f : Entrywise} (hop : op.entrywise = some f)
    (x : Tensor ℝ) : realReference inputs op [x] 0 = x.map f.apply := by
  have hone : realReference inputs op [x] 0 = realOne op x := by
    cases op <;> first | rfl | cases hop
  rw [hone, realOne, hop]

theorem realReference_two {op : NodeOp} (hop : op.pairwise ≠ none ∨ op.reduction ≠ none)
    (x y : Tensor ℝ) : realReference inputs op [x, y] 0 = realTwo op x y 0 := by
  cases op <;> first | rfl | simp [NodeOp.pairwise, NodeOp.reduction] at hop

theorem realReference_computable : (realReference inputs).Computable where
  toTransposes := realReference_transposes
  toAddsBias := realReference_addsBias
  number _ _ _ _ _ := rfl
  convert _ _ _ := rfl
  round _ := rfl
  entrywise op f hop x _ := realReference_entrywise hop x
  pairwise op f hop x y _ := by
    rw [realReference_two (.inl (by rw [hop]; exact nofun)), realTwo, hop]
  select _ _ _ _ _ := rfl
  reduce op keepDims f hop x axes _ := by
    rw [realReference_two (.inr (by rw [hop]; exact nofun)), realTwo, pairwise_of_reduction hop,
      hop, integers_ofList]

theorem realReference_rearranges : (realReference inputs).Rearranges where
  spaceToDepth _ _ _ _ _ _ _ _ := rfl
  depthToSpace _ _ _ _ _ _ _ _ := rfl
  spaceToBatch _ _ _ _ _ _ _ _ _ _ := by
    simp only [realReference, realQuaternary, sizes, naturals_ofList]
    rfl
  batchToSpace _ _ _ _ _ _ _ _ _ _ := by
    simp only [realReference, realQuaternary, sizes, naturals_ofList]
    rfl
  squeeze x axes _ _ _ := by
    simp only [realReference, realTwo, NodeOp.pairwise, NodeOp.reduction, realBinary,
      vectorTensor, integers_ofList]
  unsqueeze x axis _ := by
    have hscalar : (constantTensor [] [.int axis]).shape = [] := rfl
    simp only [realReference, realTwo, NodeOp.pairwise, NodeOp.reduction, realBinary, unsqueezed,
      if_pos hscalar, floor_constantTensor]
  unsqueezeBehind x k := by
    have hshape : (vectorTensor ((List.range' x.shape.length k).map
        fun (a : Nat) => (a : Int))).shape = [k] := by
      simp [vectorTensor, Tensor.ofList]
    simp only [realReference, realTwo, NodeOp.pairwise, NodeOp.reduction, realBinary, unsqueezed,
      hshape, reduceCtorEq, if_false, List.getD_cons_zero]
  gather x positions axis _ _ := by
    simp only [realReference, realTernary, floor_constantTensor]
  concat _ _ _ := rfl
  split x axis count size k _ hsize hk := by
    have hquotient : x.shape.getD (normalAxis x.shape.length axis) 0 / count = size := by
      rw [hsize, Nat.mul_div_cancel_left size (by omega)]
    simp only [realReference, realTwo, NodeOp.pairwise, NodeOp.reduction, realBinary, part,
      floor_constantTensor, hquotient]
  pad x heads tails _ _ := by
    simp only [realReference, realTernary, sizes, naturals_ofList]
  padWith x v heads tails _ _ _ := by
    simp only [realReference, realQuaternary, sizes, naturals_ofList]
  shuffle _ _ _ _ _ _ _ := rfl

theorem realReference_computesLayers : (realReference inputs).ComputesLayers where
  regroup x target _ := by
    simp only [realReference, realTwo, NodeOp.pairwise, NodeOp.reduction, realBinary, sizes,
      naturals_ofList]
  matMul _ _ _ _ _ _ _ := rfl
  convolve attrs x f _ _ _ _ _ _ _ _ hx hf := by
    simp only [realReference, realTwo, NodeOp.pairwise, NodeOp.reduction, realBinary, hx, hf,
      List.getD_cons_zero, List.getD_cons_succ]
  groupConvolve attrs x f _ _ _ _ _ _ _ _ _ hx hf := by
    simp only [realReference, realTwo, NodeOp.pairwise, NodeOp.reduction, realBinary, hx, hf,
      List.getD_cons_zero, List.getD_cons_succ]
  avgPool attrs x _ _ _ _ hx _ _ := by
    simp only [realReference, realOne, NodeOp.entrywise, realUnary, hx, List.getD_cons_zero,
      List.getD_cons_succ]
  maxPool attrs x _ _ _ _ hx _ _ := by
    simp only [realReference, realOne, NodeOp.entrywise, realUnary, hx, List.getD_cons_zero,
      List.getD_cons_succ]

/-- All premises on a meaning hold together. -/
theorem realReference_documented : (realReference inputs).Documented where
  toComputable := realReference_computable
  toRearranges := realReference_rearranges
  toComputesLayers := realReference_computesLayers

end Reference

end NnHal
