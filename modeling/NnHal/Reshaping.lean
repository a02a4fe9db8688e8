import NnHal.OperandAccess

/-!
# Operations on the shape

The classes that move, select, repeat or regroup the entries of a tensor.
Several of them compute a new shape or a mask from the constants of the model
before they build their node, and those computations are modelled as they
stand, with their faults.
-/

namespace NnHal

open Command

/-- The layout input of a class: present when the operation has that many
inputs, and NHWC otherwise. -/
def OperationsBase.useNchw (self : OperationsBase) (inputsSize index : Nat) : Gen Bool :=
  if self.inputsSize = inputsSize then do
    let layout ← self.parseOperationInput .uint8 index
    pure (layout ≠ 0)
  else pure false

/-- The flag of the layout, read where the operation has it. -/
def layoutUses (self : OperationsBase) (inputsSize index : Nat) : List Use :=
  if self.inputsSize = inputsSize then [.scalar .uint8 index] else []

/-- Asking for the layout uses the flag. -/
theorem uses_useNchw {self : OperationsBase} {inputsSize index : Nat} :
    Uses self (self.useNchw inputsSize index) (layoutUses self inputsSize index) := by
  unfold OperationsBase.useNchw layoutUses
  split
  · exact .scalar fun _ => .pure _
  · exact .pure _

/-- Transpose unless the layout is already NCHW. -/
def transposeUnless (useNchw : Bool) (type : ConversionType) (node : Node) : Gen Node :=
  if useNchw then pure node else transpose type node

/-- The order of the axes is the code's own. -/
theorem quiet_transposeUnless {useNchw : Bool} {type : ConversionType} {node : Node} :
    Quiet Cmd.access (transposeUnless useNchw type node) := by
  unfold transposeUnless
  exact quiet_ite (quiet_pure _) quiet_transpose

/-- A paddings tensor, read as one vector, as the heads and the tails. -/
def splitPairs : List Int → List Int × List Int
  | a :: b :: rest => (a :: (splitPairs rest).1, b :: (splitPairs rest).2)
  | _ => ([], [])

/-! ## Selecting entries -/

/-- `GATHER`: the axis is a scalar, the positions are a tensor. -/
def Gather.createNode (self : OperationsBase) : Gen Node := do
  let gatherVals ← self.getInputNode 0
  let axis ← self.parseOperationInput .int32 1
  let axisNode ← createConstNode .i32 [] [.int axis]
  let indices ← self.getInputNode 2
  makeShared .gather [gatherVals, indices, axisNode]

/-- Both tensors and the axis. -/
def Gather.uses : List Use := [.node 0, .scalar .int32 1, .node 2]

/-- The axis is read between the two. -/
theorem Gather.createNode_uses {self : OperationsBase} :
    Uses self (Gather.createNode self) Gather.uses :=
  .node fun _ => .scalar fun _ => .const fun _ => .node fun _ => .quiet quiet_make

def EmbeddingLookup.validate (self : OperationsBase) : Gen Bool :=
  pure (2 ≤ (self.getInputOperandDimensions 1).length)

/-- `EMBEDDING_LOOKUP` gathers rows: the positions come first among its inputs. -/
def EmbeddingLookup.createNode (self : OperationsBase) : Gen Node := do
  let indices ← self.getInputNode 0
  let input ← self.getInputNode 1
  let axis ← createConstNode .i32 [] [.int 0]
  makeShared .gather [input, indices, axis]

/-- It uses both inputs. -/
theorem EmbeddingLookup.createNode_uses {self : OperationsBase} :
    Uses self (EmbeddingLookup.createNode self) [.node 0, .node 1] :=
  .node fun _ => .node fun _ => .const fun _ => .quiet quiet_make

/-- One step of the loop of `getMaskBits`: the lowest bit of the mask is
written at position `i`, which nothing keeps inside the vector. -/
def StridedSlice.getMaskBitsFrom : Nat → Int → Nat → List Int → Gen (List Int)
  | 0, _, _, bits => pure bits
  | fuel + 1, maskValue, i, bits =>
      if maskValue = 0 then pure bits else do
        faultIf (bits.length ≤ i) .vectorIndex
        StridedSlice.getMaskBitsFrom fuel (maskValue.tdiv 2) (i + 1)
          (bits.set i (if maskValue.tmod 2 = 0 then 0 else 1))

/-- `StridedSlice::getMaskBits`.  Halving an `int32_t` reaches zero within 32
rounds. -/
def StridedSlice.getMaskBits (maskValue : Int) (vecSize : Nat) : Gen (List Int) :=
  StridedSlice.getMaskBitsFrom 32 maskValue 0 (List.replicate vecSize 0)

/-- The bits are computed from a value that was read before. -/
theorem StridedSlice.getMaskBits_quiet {maskValue : Int} {vecSize : Nat} :
    Quiet Cmd.access (StridedSlice.getMaskBits maskValue vecSize) := by
  have hfrom : ∀ fuel maskValue i bits,
      Quiet Cmd.access (StridedSlice.getMaskBitsFrom fuel maskValue i bits) := by
    intro fuel
    induction fuel with
    | zero => exact fun _ _ _ => quiet_pure _
    | succ fuel ih =>
        exact fun _ _ _ => quiet_ite (quiet_pure _) ((quiet_faultIf rfl).bind fun _ => ih _ _ _)
  exact hfrom _ _ _ _

/-- The loop of `StridedSlice::validate` over the axes: on each axis the shrink
mask selects, the stride is not negative and the slice has at most one
entry. -/
def StridedSlice.validateAxes (self : OperationsBase) (shrinkAxisMaskBits : List Int) :
    List Nat → Gen Bool
  | [] => pure true
  | i :: axes =>
      if shrinkAxisMaskBits.getD i 0 = 0 then
        StridedSlice.validateAxes self shrinkAxisMaskBits axes
      else do
        let stridesVector ← self.getConstVecInput .int32 3
        let stride ← elementAt stridesVector i
        if stride < 0 then pure false else do
          let beginVector ← self.getConstVecInput .int32 1
          let endVector ← self.getConstVecInput .int32 2
          let first ← elementAt beginVector i
          let last ← elementAt endVector i
          let size := toInt32 (first - last)
          if size > 1 ∨ size < -1 then pure false
          else StridedSlice.validateAxes self shrinkAxisMaskBits axes

/-- The bounds and strides are constant, and the shrunk axes have one entry. -/
def StridedSlice.validate (self : OperationsBase) : Gen Bool := do
  let inputRank := (self.getInputOperandDimensions 0).length
  if inputRank > 4 then pure false
  else if ¬ self.isInputConst 1 then pure false
  else if ¬ self.isInputConst 2 then pure false
  else if ¬ self.isInputConst 3 then pure false
  else do
    let shrinkAxisMask ← self.parseOperationInput .int32 6
    let shrinkAxisMaskBits ← StridedSlice.getMaskBits shrinkAxisMask inputRank
    StridedSlice.validateAxes self shrinkAxisMaskBits (List.range inputRank)

/-- `STRIDED_SLICE`: a mask has one bit for every axis. -/
def StridedSlice.createNode (self : OperationsBase) : Gen Node := do
  let data ← self.getInputNode 0
  let first ← self.getInputNode 1
  let last ← self.getInputNode 2
  let strides ← self.getInputNode 3
  let beginMask ← self.parseOperationInput .int32 4
  let endMask ← self.parseOperationInput .int32 5
  let shrinkAxisMask ← self.parseOperationInput .int32 6
  let dataDimSize := (self.getInputOperandDimensions 0).length
  let beginMaskBits ← StridedSlice.getMaskBits beginMask dataDimSize
  let endMaskBits ← StridedSlice.getMaskBits endMask dataDimSize
  let shrinkAxisMaskBits ← StridedSlice.getMaskBits shrinkAxisMask dataDimSize
  makeShared (.stridedSlice beginMaskBits endMaskBits [] shrinkAxisMaskBits [])
    [data, first, last, strides]

/-- Four tensors and three masks. -/
def StridedSlice.uses : List Use :=
  [.node 0, .node 1, .node 2, .node 3, .scalar .int32 4, .scalar .int32 5, .scalar .int32 6]

/-- All tensors are fetched before a mask is read. -/
theorem StridedSlice.createNode_uses {self : OperationsBase} :
    Uses self (StridedSlice.createNode self) StridedSlice.uses := by
  refine .node fun _ => .node fun _ => .node fun _ => .node fun _ => ?_
  refine .scalar fun _ => .scalar fun _ => .scalar fun _ => ?_
  refine .step StridedSlice.getMaskBits_quiet fun _ => ?_
  refine .step StridedSlice.getMaskBits_quiet fun _ => ?_
  exact .step StridedSlice.getMaskBits_quiet fun _ => .quiet quiet_make

/-! ## Changing the rank -/

def ExpandDims.validate (self : OperationsBase) : Gen Bool :=
  pure (1 ≤ (self.getInputOperandDimensions 0).length)

/-- `EXPAND_DIMS`, with the axis as a constant of the graph. -/
def ExpandDims.createNode (self : OperationsBase) : Gen Node := do
  let input ← self.getInputNode 0
  let index ← self.parseOperationInput .int32 1
  let axes ← createConstNode .i32 [] [.int index]
  makeShared .unsqueeze [input, axes]

def ExpandDims.uses : List Use := [.node 0, .scalar .int32 1]

theorem ExpandDims.createNode_uses {self : OperationsBase} :
    Uses self (ExpandDims.createNode self) ExpandDims.uses :=
  .node fun _ => .scalar fun _ => .const fun _ => .quiet quiet_make

/-- `Squeeze::validate`: the axes are there, and constant. -/
def Squeeze.validate (self : OperationsBase) : Gen Bool :=
  pure (¬ self.isOmittedInput 1 ∧ self.isInputConst 1)

/-- Without axes a constant of none stands for them. -/
def Squeeze.createNode (self : OperationsBase) : Gen Node := do
  let input ← self.getInputNode 0
  let dims ←
    (if ¬ self.isOmittedInput 1 then self.getInputNode 1
    else createConstNode .i32 [0] [])
  makeShared .squeeze [input, dims]

/-- The axes are used where they are given. -/
def Squeeze.uses (self : OperationsBase) : List Use :=
  .node 0 :: (if ¬ self.isOmittedInput 1 then [.node 1] else [])

theorem Squeeze.createNode_uses {self : OperationsBase} :
    Uses self (Squeeze.createNode self) (Squeeze.uses self) :=
  .node fun _ => .bindMake (.ite (fun _ => uses_getInputNode) fun _ => .quiet quiet_const)

/-- The dimensions given are neither missing nor zero in their first entry. -/
def Transpose.hasOrder (self : OperationsBase) : Bool := ¬ self.isZeroSizedInput 1

/-- An order that is given has to be constant. -/
def Transpose.validate (self : OperationsBase) : Gen Bool :=
  if Transpose.hasOrder self ∧ ¬ self.isInputConst 1 then pure false else pure true

/-- `TRANSPOSE`; without an order the axes are reversed. -/
def Transpose.createNode (self : OperationsBase) : Gen Node := do
  let input ← self.getInputNode 0
  let order ←
    (if Transpose.hasOrder self then self.getInputNode 1
    else createConstNode .i32 [0] [.int 0])
  makeShared .transpose [input, order]

/-- The order is used where it is given. -/
def Transpose.uses (self : OperationsBase) : List Use :=
  .node 0 :: (if Transpose.hasOrder self then [.node 1] else [])

theorem Transpose.createNode_uses {self : OperationsBase} :
    Uses self (Transpose.createNode self) (Transpose.uses self) :=
  .node fun _ => .bindMake (.ite (fun _ => uses_getInputNode) fun _ => .quiet quiet_const)

/-- The requested shape is constant and has entries. -/
def Reshape.validate (self : OperationsBase) : Gen Bool :=
  pure (self.isInputConst 1 ∧ self.isValidInputTensor 1)

/-- The last negative entry of the requested shape. -/
def Reshape.strechDim (outDims : List Int) : Option Nat :=
  outDims.zipIdx.foldl (fun strechDim d => if d.1 < 0 then some d.2 else strechDim) none

/-- The shape `Reshape` asks for: the stretched dimension takes what the other
ones leave.  The products are taken in `int`. -/
def Reshape.outputDims (inDims : List Nat) (outDims : List Int) : Gen (List Int) := do
  let numInputElements := inDims.foldl (fun n d => toInt32 (n * d)) 1
  let numOutputElements :=
    outDims.foldl (fun n d => if d < 0 then n else toInt32 (n * d)) 1
  match Reshape.strechDim outDims with
  | none => pure outDims
  | some strechDim => do
      let strechValue ← divInt numInputElements numOutputElements
      pure (outDims.set strechDim (toInt32 strechValue))

/-- `RESHAPE`: the requested shape is computed here, zeros in it are for ngraph. -/
def Reshape.createNode (self : OperationsBase) : Gen Node := do
  let outDims ← self.getConstVecInput .int32 1
  let inputOp ← self.getInputNode 0
  let outDims ← Reshape.outputDims (self.getInputOperandDimensions 0) outDims
  let shapeNode ← makeShared (.constant .i32 [outDims.length] (outDims.map .int)) []
  makeShared (.reshape true) [inputOp, shapeNode]

/-- The shape is read before the input is fetched. -/
def Reshape.uses : List Use := [.vector .int32 1, .node 0]

/-- The stretched dimension is computed from what was read. -/
theorem Reshape.createNode_uses {self : OperationsBase} :
    Uses self (Reshape.createNode self) Reshape.uses := by
  have houtput : ∀ inDims outDims, Quiet Cmd.access (Reshape.outputDims inDims outDims) := by
    intro inDims outDims
    unfold Reshape.outputDims
    cases Reshape.strechDim outDims with
    | none => exact quiet_pure _
    | some i => exact quiet_divInt.bind fun _ => quiet_pure _
  exact .vector fun _ => .node fun _ => .step (houtput _ _) fun _ => .make fun _ =>
    .quiet quiet_make

/-! ## Joining and splitting -/

/-- `Concat::validate`: every input but the axis is a valid tensor. -/
def Concat.validate (self : OperationsBase) : Gen Bool :=
  pure ((List.range (self.inputsSize - 1)).all fun i => self.isValidInputTensor i)

/-- `CONCATENATION`: the axis is the last input. -/
def Concat.createNode (self : OperationsBase) : Gen Node := do
  let n := self.inputsSize - 1
  let axis ← self.parseOperationInput .uint32 n
  let inputs ← (List.range n).mapM fun i => self.getInputNode i
  makeShared (.concat axis) (inputs.map fun (input : Node) => (input : Output))

/-- The axis first, then every tensor. -/
def Concat.uses (self : OperationsBase) : List Use :=
  .scalar .uint32 (self.inputsSize - 1) ::
    (List.range (self.inputsSize - 1)).flatMap fun i => [.node i]

/-- One use for each round of the loop. -/
theorem Concat.createNode_uses {self : OperationsBase} :
    Uses self (Concat.createNode self) (Concat.uses self) :=
  .scalar fun _ => .bindMake (.mapM (fun _ => uses_getInputNode) _)

/-- The conversion of one output of `Split`, by the type of its input. -/
def Split.outNode (self : OperationsBase) (split : Node) (i : Nat) : Option (Gen Node) :=
  match (self.getInputOperand 0).type with
  | .tensorFloat32 => some (makeShared (.convert .f32) [split.output i])
  | .tensorFloat16 => some (makeShared (.convert .f16) [split.output i])
  | .tensorInt32 => some (makeShared (.convert .i32) [split.output i])
  | .tensorQuant8Asymm | .tensorQuant8AsymmSigned =>
      some (makeShared (.convert .u8) [split.output i])
  | _ => none

/-- The output operand of the loop of `Split`, whose bound is the value of an
input and not the number of outputs. -/
def Split.outputAt (self : OperationsBase) (i : Nat) : Gen Nat :=
  elementAt (self.sModelInfo.getOperation self.mNnapiOperationIndex).outputs i

/-- `Split::createNode`, which binds its outputs itself. -/
def Split.createNode (self : OperationsBase) : Gen Unit := do
  let splitNode ← self.getInputNode 0 false
  let axis ← self.parseOperationInput .int32 1
  let axisNode ← createConstNode .i32 [] [.int axis]
  let numSplits ← self.parseOperationInput .uint32 2
  let split ← makeShared (.split numSplits.toNat) [splitNode, axisNode]
  forM (List.range numSplits.toNat) fun i => do
    let index ← Split.outputAt self i
    self.setConverted index (Split.outNode self split i)

/-- The input types `Split` has a branch for. -/
def Split.converts (type : OperandType) : Bool :=
  type ∈ [OperandType.tensorFloat32, .tensorFloat16, .tensorInt32, .tensorQuant8Asymm,
    .tensorQuant8AsymmSigned]

/-- The number of outputs `Split` binds. -/
def Split.numSplits (self : OperationsBase) : Nat :=
  (self.sModelInfo.scalarValue .uint32 (self.inputIndex 2)).toNat

/-- The input, the axis, the number of parts, and as many outputs. -/
def Split.uses (self : OperationsBase) : List Use :=
  [.node 0 false, .scalar .int32 1, .scalar .uint32 2] ++
    (List.range (Split.numSplits self)).flatMap fun i =>
      [.set (self.outputIndex i) (Split.converts (self.getInputOperand 0).type)]

/-- An output is converted exactly when the type of the input has a branch. -/
theorem Split.outNode_isSome (self : OperationsBase) (split : Node) (i : Nat) :
    (Split.outNode self split i).isSome = Split.converts (self.getInputOperand 0).type := by
  unfold Split.outNode
  cases (self.getInputOperand 0).type <;> rfl

/-- The conversions use no operand. -/
theorem Split.outNode_quiet (self : OperationsBase) (split : Node) (i : Nat) :
    ∀ p ∈ Split.outNode self split i, Quiet Cmd.access p := by
  unfold Split.outNode
  intro p hp
  split at hp <;> simp only [Option.mem_def, Option.some.injEq, reduceCtorEq] at hp <;> subst hp
  all_goals exact quiet_make

/-- The loop runs as often as the number that was read says. -/
theorem Split.createNode_uses {self : OperationsBase} :
    Uses self (Split.createNode self) (Split.uses self) := by
  refine .node fun _ => .scalar fun _ => .const fun _ => .scalarValue (.make fun split => ?_)
  refine Uses.forM (fun i => ?_) _
  rw [← Split.outNode_isSome self split]
  apply Uses.step_yields quiet_elementAt (yields_elementAt _ i)
  intro index hindex
  subst hindex
  exact .converted (Split.outNode_quiet self split i)

/-! ## Padding -/

/-- The ranks the two padding classes take. -/
def padValidate (self : OperationsBase) : Gen Bool :=
  let inputRank := (self.getInputOperandDimensions 0).length
  if inputRank > 4 then pure false
  else if inputRank < 2 then pure false
  else pure (self.isInputConst 1)

def Pad.validate (self : OperationsBase) : Gen Bool := padValidate self

/-- `PAD`: the paddings are split into heads and tails. -/
def Pad.createNode (self : OperationsBase) : Gen Node := do
  let inputNode ← self.getInputNode 0
  let paddings ← self.getConstVecInput .int32 1
  let halfSize := paddings.length / 2
  let padsBegin ← createConstNode .i32 [halfSize] ((splitPairs paddings).1.map .int)
  let padsEnd ← createConstNode .i32 [halfSize] ((splitPairs paddings).2.map .int)
  makeShared .pad [inputNode, padsBegin, padsEnd]

/-- The input and its paddings. -/
def Pad.uses : List Use := [.node 0, .vector .int32 1]

theorem Pad.createNode_uses {self : OperationsBase} :
    Uses self (Pad.createNode self) Pad.uses :=
  .node fun _ => .vector fun _ => .const fun _ => .const fun _ => .quiet quiet_make

def PadV2.validate (self : OperationsBase) : Gen Bool := padValidate self

/-- The value `PadV2` pads with, read by the type of its input; a type no
branch names leaves the pointer null. -/
def PadV2.padValue (self : OperationsBase) : Gen Node :=
  match (self.getInputOperand 0).type with
  | .tensorFloat32 => do
      let padScalarValue ← self.parseOperationInput .float32 2
      createConstNode .f32 [] [CType.float32.scalar padScalarValue]
  | .tensorFloat16 => do
      let padScalarValue ← self.parseOperationInput .float16 2
      createConstNode .f16 [] [CType.float16.scalar padScalarValue]
  | .tensorQuant8Asymm | .tensorQuant8AsymmSigned => do
      let padScalarValue ← self.parseOperationInput .int32 2
      let padValue ← createConstNode .i32 [] [.int padScalarValue]
      self.dequantizeNode padValue (self.inputIndex 0) .f32
  | _ => deref none

/-- `PAD_V2`, with the value to pad with. -/
def PadV2.createNode (self : OperationsBase) : Gen Node := do
  let inputNode ← self.getInputNode 0
  let padValue ← PadV2.padValue self
  let paddings ← self.getConstVecInput .int32 1
  let halfSize := paddings.length / 2
  let padsBegin ← createConstNode .i32 [halfSize] ((splitPairs paddings).1.map .int)
  let padsEnd ← createConstNode .i32 [halfSize] ((splitPairs paddings).2.map .int)
  makeShared .pad [inputNode, padsBegin, padsEnd, padValue]

/-- The value is read in the type of the input. -/
def PadV2.padValueUses (self : OperationsBase) : List Use :=
  match (self.getInputOperand 0).type with
  | .tensorFloat32 => [.scalar .float32 2]
  | .tensorFloat16 => [.scalar .float16 2]
  | .tensorQuant8Asymm | .tensorQuant8AsymmSigned =>
      [.scalar .int32 2, .dequantize (self.inputIndex 0)]
  | _ => []

/-- The value is read before the paddings. -/
def PadV2.uses (self : OperationsBase) : List Use :=
  .node 0 :: (PadV2.padValueUses self ++ [.vector .int32 1])

/-- A type without a branch reads nothing. -/
theorem PadV2.createNode_uses {self : OperationsBase} :
    Uses self (PadV2.createNode self) (PadV2.uses self) := by
  have hvalue : Uses self (PadV2.padValue self) (PadV2.padValueUses self) := by
    unfold PadV2.padValue PadV2.padValueUses
    cases (self.getInputOperand 0).type
    case tensorFloat32 | tensorFloat16 => exact .scalar fun _ => .quiet quiet_const
    case tensorQuant8Asymm | tensorQuant8AsymmSigned =>
      exact .scalar fun _ => .const fun _ => .dequantized
    all_goals exact .quiet quiet_deref
  refine .node fun _ => hvalue.bind fun _ => .vector fun _ => ?_
  exact .const fun _ => .const fun _ => .quiet quiet_make

end NnHal
