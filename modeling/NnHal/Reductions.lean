import NnHal.OperandAccess

/-!
# Reductions and normalizations

The classes that reduce along axes: the `Reduce` family, the mean, the
arguments of the extrema, the `k` largest entries, and the normalizations
built from such reductions.
-/

namespace NnHal

open Command

/-- A member of the `Reduce` family: the axes come as a tensor, and the third
input says whether they are kept. -/
def OperationsBase.reduceNode (self : OperationsBase) (op : Bool → NodeOp) :
    Gen Node := do
  let input ← self.getInputNode 0
  let reductionAxes ← self.getInputNode 1
  let keepDims ← self.parseOperationInput .uint8 2
  makeShared (op (keepDims ≠ 0)) [input, reductionAxes]

/-- `REDUCE_ALL` and `REDUCE_ANY` are the connectives over an axis. -/
def ReduceAll.createNode (self : OperationsBase) : Gen Node :=
  self.reduceNode .reduceLogicalAnd
def ReduceAny.createNode (self : OperationsBase) : Gen Node :=
  self.reduceNode .reduceLogicalOr

/-- The largest entry, the smallest, the product and the sum. -/
def ReduceMax.createNode (self : OperationsBase) : Gen Node := self.reduceNode .reduceMax
def ReduceMin.createNode (self : OperationsBase) : Gen Node := self.reduceNode .reduceMin
def ReduceProd.createNode (self : OperationsBase) : Gen Node := self.reduceNode .reduceProd
def ReduceSum.createNode (self : OperationsBase) : Gen Node := self.reduceNode .reduceSum

/-- The input, the axes and the flag. -/
def reduceUses : List Use := [.node 0, .node 1, .scalar .uint8 2]

/-- The axes are a node here, so they may be an input of the model. -/
theorem uses_reduceNode {self : OperationsBase} {op : Bool → NodeOp} :
    Uses self (self.reduceNode op) reduceUses :=
  .node fun _ => .node fun _ => .scalar fun _ => .quiet quiet_make

/-- `Mean::validate`: the axes are constant. -/
def Mean.validate (self : OperationsBase) : Gen Bool :=
  pure (self.isInputConst 1)

/-- `Mean::createNode` reads the flag as a number and keeps the dimensions
when it is positive. -/
def Mean.createNode (self : OperationsBase) : Gen Node := do
  let input ← self.getInputNode 0
  let reductionAxes ← self.getInputNode 1
  let reduceDims ← self.parseOperationInput .int32 2
  makeShared (.reduceMean (reduceDims > 0)) [input, reductionAxes]

/-- As for the family, but the flag is read as a number of four bytes. -/
def Mean.uses : List Use := [.node 0, .node 1, .scalar .int32 2]

/-- The axes are a node here too. -/
theorem Mean.createNode_uses {self : OperationsBase} :
    Uses self (Mean.createNode self) Mean.uses :=
  .node fun _ => .node fun _ => .scalar fun _ => .quiet quiet_make

/-- `Argmax` and `Argmin`: the axis `TopK` reports is the one it was given,
counted from the rank of the input when negative. -/
def OperationsBase.argNode (self : OperationsBase) (max : Bool) : Gen Node := do
  let input ← self.getInputNode 0
  let axis ← self.parseOperationInput .int32 1
  let kNode ← createConstNode .i32 [] [.int 1]
  let topk ← makeShared (.topK axis max false) [input, kNode]
  let shape ← issue (.getShape input)
  let axisToRemove ← createConstNode .u32 []
    [.int (if axis < 0 then axis + shape.length else axis)]
  makeShared .squeeze [topk.output 1, axisToRemove]

/-- `ARGMAX` and `ARGMIN` differ in the mode of `TopK`. -/
def Argmax.createNode (self : OperationsBase) : Gen Node := self.argNode true
def Argmin.createNode (self : OperationsBase) : Gen Node := self.argNode false

/-- The input and the axis. -/
def argUses : List Use := [.node 0, .scalar .int32 1]

/-- The number of entries is the code's own constant. -/
theorem uses_argNode {self : OperationsBase} {max : Bool} :
    Uses self (self.argNode max) argUses := by
  refine .node fun _ => .scalar fun _ => .const fun _ => .make fun _ => ?_
  exact .step quiet_getShape fun _ => .const fun _ => .quiet quiet_make

/-! ## The `k` largest entries -/

/-- The conversion of one output of `TopkV2`, by the type of its operand. -/
def TopkV2.outNode (self : OperationsBase) (topk : Node) (i : Nat) :
    Option (Gen Node) :=
  match (self.getOutputOperand i).type with
  | .tensorFloat32 => some (makeShared (.convert .f32) [topk.output i])
  | .tensorFloat16 => some (makeShared (.convert .f16) [topk.output i])
  | .tensorInt32 => some (makeShared (.convert .i32) [topk.output i])
  | .tensorQuant8Asymm => some (do
      let outNode ← makeShared (.convert .f32) [topk.output i]
      self.quantizeNode outNode (self.outputIndex i) .u8)
  | .tensorQuant8AsymmSigned => some (do
      let outNode ← makeShared (.convert .f32) [topk.output i]
      self.quantizeNode outNode (self.outputIndex i) .i8)
  | _ => none

/-- `TopkV2::createNode`, which binds both outputs itself. -/
def TopkV2.createNode (self : OperationsBase) : Gen Unit := do
  let input ← self.getInputNode 0
  let k ← self.parseOperationInput .int32 1
  let kNode ← createConstNode .i32 [] [.int k]
  let topk ← makeShared (.topK (-1) true true) [input, kNode]
  forM [0, 1] fun i => self.setConverted (self.outputIndex i) (TopkV2.outNode self topk i)

/-- The output types `TopkV2` has a branch for. -/
def TopkV2.converts (type : OperandType) : Bool :=
  type ∈ [OperandType.tensorFloat32, .tensorFloat16, .tensorInt32, .tensorQuant8Asymm,
    .tensorQuant8AsymmSigned]

/-- The input, the number of entries, and the two outputs. -/
def TopkV2.uses (self : OperationsBase) : List Use :=
  [.node 0, .scalar .int32 1] ++
    [0, 1].flatMap fun i =>
      [.set (self.outputIndex i) (TopkV2.converts (self.getOutputOperand i).type)]

/-- An output is converted exactly when its type has a branch. -/
theorem TopkV2.outNode_isSome (self : OperationsBase) (topk : Node) (i : Nat) :
    (TopkV2.outNode self topk i).isSome = TopkV2.converts (self.getOutputOperand i).type := by
  unfold TopkV2.outNode
  cases (self.getOutputOperand i).type <;> rfl

/-- The conversions use no operand. -/
theorem TopkV2.outNode_quiet (self : OperationsBase) (topk : Node) (i : Nat) :
    ∀ p ∈ TopkV2.outNode self topk i, Quiet Cmd.access p := by
  have hquantize : ∀ type, Quiet Cmd.access (do
      let outNode ← makeShared (.convert .f32) [topk.output i]
      self.quantizeNode outNode (self.outputIndex i) type) :=
    fun type => quiet_make.bind fun _ => quiet_quantizeNode
  unfold TopkV2.outNode
  intro p hp
  split at hp <;> simp only [Option.mem_def, Option.some.injEq, reduceCtorEq] at hp <;> subst hp
  all_goals first | exact quiet_make | exact hquantize _

/-- An output without a branch is bound to null. -/
theorem TopkV2.createNode_uses {self : OperationsBase} :
    Uses self (TopkV2.createNode self) (TopkV2.uses self) := by
  refine .node fun _ => .scalar fun _ => .const fun _ => .make fun topk => ?_
  refine Uses.forM (fun i => ?_) [0, 1]
  rw [← TopkV2.outNode_isSome self topk]
  exact .converted (TopkV2.outNode_quiet self topk i)

/-! ## Normalizations -/

/-- The `beta` of the two softmax classes, as a node of the given shape. -/
def OperationsBase.betaNode (self : OperationsBase) (shape : List Nat) : Gen Node :=
  if self.checkInputOperandType 0 .tensorFloat16 then do
    let beta ← self.parseOperationInput .float16 1
    createConstNode .f16 shape [CType.float16.scalar beta]
  else do
    let beta ← self.parseOperationInput .float32 1
    createConstNode .f32 shape [CType.float32.scalar beta]

/-- Their axis, which is the last one where the input is left out. -/
def OperationsBase.axisNode (self : OperationsBase) (inputsSize index : Nat) : Gen Node := do
  let axis ←
    (if self.inputsSize = inputsSize then self.parseOperationInput .int32 index else pure (-1))
  createConstNode .i32 [1] [.int axis]

/-- `SOFTMAX`: the maximum is taken away before the exponential. -/
def Softmax.createNode (self : OperationsBase) : Gen Node := do
  let input ← self.getInputNode 0
  let betaNode ← self.betaNode [1]
  let axisNode ← self.axisNode 3 2
  let max ← makeShared (.reduceMax true) [input, axisNode]
  let sub ← makeShared .subtract [input, max]
  let mul ← makeShared .multiply [sub, betaNode]
  let exp ← makeShared .exp [mul]
  let sum ← makeShared (.reduceSum true) [exp, axisNode]
  makeShared .divide [exp, sum]

/-- `LOG_SOFTMAX`, without taking the maximum away. -/
def LogSoftmax.createNode (self : OperationsBase) : Gen Node := do
  let input ← self.getInputNode 0
  let betaNode ← self.betaNode []
  let axisNode ← self.axisNode 3 2
  let mul ← makeShared .multiply [input, betaNode]
  let exp ← makeShared .exp [mul]
  let sum ← makeShared (.reduceSum true) [exp, axisNode]
  let log ← makeShared .log [sum]
  makeShared .subtract [mul, log]

/-- `beta` is read in the type of the input. -/
def betaUses (self : OperationsBase) : List Use :=
  if self.checkInputOperandType 0 .tensorFloat16 then [.scalar .float16 1]
  else [.scalar .float32 1]

/-- The axis is an input of the longer signature only. -/
def axisUses (self : OperationsBase) (inputsSize index : Nat) : List Use :=
  if self.inputsSize = inputsSize then [.scalar .int32 index] else []

/-- What both softmax classes use. -/
def softmaxUses (self : OperationsBase) : List Use :=
  .node 0 :: (betaUses self ++ axisUses self 3 2)

/-- Either branch reads one scalar. -/
theorem uses_betaNode {self : OperationsBase} {shape : List Nat} :
    Uses self (self.betaNode shape) (betaUses self) := by
  unfold OperationsBase.betaNode betaUses
  split <;> exact .scalar fun _ => .quiet quiet_const

/-- Where there is no axis, nothing is read. -/
theorem uses_axisNode {self : OperationsBase} {inputsSize index : Nat} :
    Uses self (self.axisNode inputsSize index) (axisUses self inputsSize index) := by
  unfold OperationsBase.axisNode axisUses
  split
  · exact .scalar fun _ => .quiet quiet_const
  · exact .step (quiet_pure _) fun _ => .quiet quiet_const

/-- The input, then `beta`, then the axis. -/
theorem Softmax.createNode_uses {self : OperationsBase} :
    Uses self (Softmax.createNode self) (softmaxUses self) := by
  refine .node fun _ => uses_betaNode.bind fun _ => ?_
  rw [← List.append_nil (axisUses self 3 2)]
  refine uses_axisNode.bind fun _ => ?_
  exact .make fun _ => .make fun _ => .make fun _ => .make fun _ => .make fun _ =>
    .quiet quiet_make

/-- In the same order. -/
theorem LogSoftmax.createNode_uses {self : OperationsBase} :
    Uses self (LogSoftmax.createNode self) (softmaxUses self) := by
  refine .node fun _ => uses_betaNode.bind fun _ => ?_
  rw [← List.append_nil (axisUses self 3 2)]
  refine uses_axisNode.bind fun _ => ?_
  exact .make fun _ => .make fun _ => .make fun _ => .make fun _ => .quiet quiet_make

/-- At most four axes, and sizes that are known. -/
def L2Normalization.validate (self : OperationsBase) : Gen Bool :=
  if (self.getInputOperandDimensions 0).length > 4 ∨ ¬ self.isValidInputTensor 0 then
    pure false
  else pure true

/-- `L2_NORMALIZATION` divides by the root of the sum of squares. -/
def L2Normalization.createNode (self : OperationsBase) : Gen Node := do
  let inputNode ← self.getInputNode 0
  let inputAxesNode ← self.axisNode 2 1
  let mul ← makeShared .multiply [inputNode, inputNode]
  let sum ← makeShared (.reduceSum true) [mul, inputAxesNode]
  let sqrt ← makeShared .sqrt [sum]
  makeShared .divide [inputNode, sqrt]

/-- The input and the axis. -/
def L2Normalization.uses (self : OperationsBase) : List Use :=
  .node 0 :: axisUses self 2 1

/-- The axis is read after the input is fetched. -/
theorem L2Normalization.createNode_uses {self : OperationsBase} :
    Uses self (L2Normalization.createNode self) (L2Normalization.uses self) := by
  refine .node fun _ => ?_
  rw [← List.append_nil (axisUses self 2 1)]
  refine uses_axisNode.bind fun _ => ?_
  exact .make fun _ => .make fun _ => .make fun _ => .quiet quiet_make

/-- Only `f32`, at most four axes, and sizes that are known. -/
def InstanceNormalization.validate (self : OperationsBase) : Gen Bool :=
  if ¬ self.checkOutputOperandType 0 .tensorFloat32 then pure false
  else if ¬ self.checkInputOperandType 0 .tensorFloat32 then pure false
  else if (self.getInputOperandDimensions 0).length > 4 ∨ ¬ self.isValidInputTensor 0 then
    pure false
  else pure true

/-- `INSTANCE_NORMALIZATION` over height and width: `MVN` in NCHW, with a factor and an offset. -/
def InstanceNormalization.createNode (self : OperationsBase) : Gen Node := do
  let inputNode ← self.getInputNode 0
  let gamma ← self.parseOperationInput .float32 1
  let beta ← self.parseOperationInput .float32 2
  let epsilon ← self.parseOperationInput .float32 3
  let layout ← self.parseOperationInput .uint8 4
  let useNchw : Bool := layout ≠ 0
  let inputNode ← (if useNchw then pure inputNode else transpose .nhwcNchw inputNode)
  let gammaNode ← createConstNode .f32 [1] [CType.float32.scalar gamma]
  let betaNode ← createConstNode .f32 [1] [CType.float32.scalar beta]
  let inputAxesNode ← createConstNode .i32 [2] [.int 2, .int 3]
  let mvnNode ← makeShared (.mvn true (CType.float32.scalar epsilon)) [inputNode, inputAxesNode]
  let mulGamma ← makeShared .multiply [mvnNode, gammaNode]
  let outputNode ← makeShared .add [mulGamma, betaNode]
  if useNchw then pure outputNode else transpose .nchwNhwc outputNode

/-- Four scalars besides the input, the last one the layout. -/
def InstanceNormalization.uses : List Use :=
  [.node 0, .scalar .float32 1, .scalar .float32 2, .scalar .float32 3, .scalar .uint8 4]

/-- All of them are read before a node is made. -/
theorem InstanceNormalization.createNode_uses {self : OperationsBase} :
    Uses self (InstanceNormalization.createNode self) InstanceNormalization.uses := by
  refine .node fun _ => .scalar fun _ => .scalar fun _ => .scalar fun _ => .scalar fun _ => ?_
  refine .step (quiet_ite (quiet_pure _) quiet_transpose) fun _ => ?_
  refine .const fun _ => .const fun _ => .const fun _ => .make fun _ => ?_
  exact .make fun _ => .make fun _ => .quiet (quiet_ite (quiet_pure _) quiet_transpose)

end NnHal
