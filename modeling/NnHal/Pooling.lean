import NnHal.Convolution

/-!
# Pooling and the fully connected layer

The three pooling classes read the same parameters.  They differ in whether
the branch with explicit padding looks at the dimensions of the input, in the
implicit schemes they know, and in what they build: L2 pooling is an average
of squares under a square root.  Only the average checks the rank of its
input.
-/

namespace NnHal

open Command

/-- What one of the pooling classes has of its own. -/
structure PoolClass where
  /-- the input's sizes are read also where the padding is explicit -/
  readsExplicitSizes : Bool
  /-- a scheme other than 1 and 2 leaves the paddings unassigned -/
  schemeTwo : Bool

/-- The local variables of a pooling class. -/
structure PoolLocals where
  paddingLeft : Option Int := none
  paddingRight : Option Int := none
  paddingTop : Option Int := none
  paddingBottom : Option Int := none
  strideWidth : Option Int := none
  strideHeight : Option Int := none
  filterWidth : Option Int := none
  filterHeight : Option Int := none
  activationFn : Option Int := none
  useNchw : Bool := false
  autoPad : Option PadType := none

namespace OperationsBase

variable (self : OperationsBase) (cls : PoolClass)

/-- The signature that gives the paddings, with or without the layout. -/
def poolExplicit : Bool := 10 ≤ self.inputsSize ∧ self.inputsSize ≤ 11

/-- The signature that gives a scheme. -/
def poolImplicit : Bool :=
  ¬ self.poolExplicit ∧ 7 ≤ self.inputsSize ∧ self.inputsSize ≤ 8

/-- The locals of the branch with paddings. -/
def poolExplicitLocals : Gen PoolLocals := do
  let paddingLeft ← self.parseInt32 1
  let paddingRight ← self.parseInt32 2
  let paddingTop ← self.parseInt32 3
  let paddingBottom ← self.parseInt32 4
  let strideWidth ← self.parseInt32 5
  let strideHeight ← self.parseInt32 6
  let filterWidth ← self.parseInt32 7
  let filterHeight ← self.parseInt32 8
  let activationFn ← self.parseInt32 9
  let useNchw ← self.useNchw 11 10
  let _ ← (if cls.readsExplicitSizes then self.convInputSizes false useNchw
    else pure (0, 0, none))
  pure { paddingLeft, paddingRight, paddingTop, paddingBottom, strideWidth, strideHeight
         filterWidth, filterHeight, activationFn, useNchw, autoPad := some .explicit }

/-- The paddings an implicit scheme stands for, and the padding type. -/
def poolImplicitPadding (scheme strideWidth strideHeight : Int)
    (inputWidth inputHeight filterWidth filterHeight : Int) :
    Gen (Option ((Int × Int) × (Int × Int)) × PadType) :=
  if scheme = 1 then do
    let width ← calculateExplicitPadding inputWidth strideWidth filterWidth 1
    let height ← calculateExplicitPadding inputHeight strideHeight filterHeight 1
    pure (some (width, height), .sameUpper)
  else if cls.schemeTwo ∧ scheme ≠ 2 then pure (none, .notset)
  else pure (some ((0, 0), (0, 0)), .valid)

/-- The locals of the branch with a scheme. -/
def poolImplicitLocals : Gen PoolLocals := do
  let paddingScheme ← self.parseInt32 1
  let strideWidth ← self.parseInt32 2
  let strideHeight ← self.parseInt32 3
  let filterWidth ← self.parseInt32 4
  let filterHeight ← self.parseInt32 5
  let activationFn ← self.parseInt32 6
  let useNchw ← self.useNchw 8 7
  let (inputWidth, inputHeight, _) ← self.convInputSizes false useNchw
  let (paddings, autoPad) ← poolImplicitPadding cls paddingScheme strideWidth strideHeight
    inputWidth inputHeight filterWidth filterHeight
  pure { paddingLeft := paddings.map (·.1.1), paddingRight := paddings.map (·.1.2)
         paddingTop := paddings.map (·.2.1), paddingBottom := paddings.map (·.2.2)
         strideWidth, strideHeight, filterWidth, filterHeight
         activationFn, useNchw, autoPad }

/-- With another number of inputs no local is assigned. -/
def poolLocals : Gen PoolLocals :=
  if self.poolExplicit then self.poolExplicitLocals cls
  else if self.poolImplicit then self.poolImplicitLocals cls
  else pure {}

/-- Strides, paddings and kernel, height first. -/
def poolAttrs (l : PoolLocals) : Gen PoolAttrs := do
  let strideHeight ← readLocal l.strideHeight
  let strideWidth ← readLocal l.strideWidth
  let paddingTop ← readLocal l.paddingTop
  let paddingLeft ← readLocal l.paddingLeft
  let paddingBottom ← readLocal l.paddingBottom
  let paddingRight ← readLocal l.paddingRight
  let filterHeight ← readLocal l.filterHeight
  let filterWidth ← readLocal l.filterWidth
  let autoPad ← readLocal l.autoPad
  pure { strides := [toSizeT strideHeight, toSizeT strideWidth]
         padsBegin := [toSizeT paddingTop, toSizeT paddingLeft]
         padsEnd := [toSizeT paddingBottom, toSizeT paddingRight]
         kernel := [toSizeT filterHeight, toSizeT filterWidth]
         autoPad }

end OperationsBase

/-- The average reads no sizes where the paddings are given. -/
def AveragePool2D.cls : PoolClass where
  readsExplicitSizes := false
  schemeTwo := false

/-- The maximum reads them, and drops them. -/
def MaxPool2d.cls : PoolClass where
  readsExplicitSizes := true
  schemeTwo := false

/-- L2 pooling too, and it knows the schemes 1 and 2 only. -/
def L2Pooling2D.cls : PoolClass where
  readsExplicitSizes := true
  schemeTwo := true

/-- `AveragePool2D::validate`: four axes. -/
def AveragePool2D.validate (self : OperationsBase) : Gen Bool :=
  pure ((self.getInputOperandDimensions 0).length = 4)

/-- `AveragePool2D` fetches its input before it reads the parameters. -/
def AveragePool2D.createNode (self : OperationsBase) : Gen Node := do
  let inputNode ← self.getInputNode 0
  let l ← self.poolLocals AveragePool2D.cls
  let inputNode ← transposeUnless l.useNchw .nhwcNchw inputNode
  let attrs ← OperationsBase.poolAttrs l
  let avgPoolNode ← makeShared (.avgPool attrs true) [inputNode]
  let activationFn ← readLocal l.activationFn
  let outputNode ← applyActivation avgPoolNode activationFn
  transposeUnless l.useNchw .nchwNhwc outputNode

/-- `MaxPool2d` reads the parameters before it fetches its input. -/
def MaxPool2d.createNode (self : OperationsBase) : Gen Node := do
  let l ← self.poolLocals MaxPool2d.cls
  let inputNode ← self.getInputNode 0
  let inputNode ← transposeUnless l.useNchw .nhwcNchw inputNode
  let attrs ← OperationsBase.poolAttrs l
  let maxPoolNode ← makeShared (.maxPool attrs) [inputNode]
  let activationFn ← readLocal l.activationFn
  let outputNode ← applyActivation maxPoolNode activationFn
  transposeUnless l.useNchw .nchwNhwc outputNode

/-- `L2Pooling2D`: the square root of the average of the squares. -/
def L2Pooling2D.createNode (self : OperationsBase) : Gen Node := do
  let l ← self.poolLocals L2Pooling2D.cls
  let inputNode ← self.getInputNode 0
  let inputSquared ← makeShared .multiply [inputNode, inputNode]
  let inputSquared ← transposeUnless l.useNchw .nhwcNchw inputSquared
  let attrs ← OperationsBase.poolAttrs l
  let avgPoolNode ← makeShared (.avgPool attrs true) [inputSquared]
  let sqrtOutput ← makeShared .sqrt [avgPoolNode]
  let activationFn ← readLocal l.activationFn
  let outputNode ← applyActivation sqrtOutput activationFn
  transposeUnless l.useNchw .nchwNhwc outputNode

/-! ## What the classes use -/

/-- The scalars of either signature, and the flag of the layout. -/
def poolLocalsUses (self : OperationsBase) : List Use :=
  if self.poolExplicit then
    .scalar .uint32 1 :: .scalar .uint32 2 :: .scalar .uint32 3 :: .scalar .uint32 4 ::
      .scalar .uint32 5 :: .scalar .uint32 6 :: .scalar .uint32 7 :: .scalar .uint32 8 ::
      .scalar .uint32 9 :: layoutUses self 11 10
  else if self.poolImplicit then
    .scalar .uint32 1 :: .scalar .uint32 2 :: .scalar .uint32 3 :: .scalar .uint32 4 ::
      .scalar .uint32 5 :: .scalar .uint32 6 :: layoutUses self 8 7
  else []

section Uses

variable {self : OperationsBase} {cls : PoolClass}

/-- The paddings of a scheme are computed, not read. -/
theorem quiet_poolImplicitPadding {scheme strideWidth strideHeight inputWidth inputHeight
    filterWidth filterHeight : Int} :
    Quiet Cmd.access (OperationsBase.poolImplicitPadding cls scheme strideWidth strideHeight
      inputWidth inputHeight filterWidth filterHeight) := by
  unfold OperationsBase.poolImplicitPadding
  refine quiet_ite (quiet_calculateExplicitPadding.bind fun _ => ?_)
    (quiet_ite (quiet_pure _) (quiet_pure _))
  exact quiet_calculateExplicitPadding.bind fun _ => quiet_pure _

/-- Reading the locals uses these scalars. -/
theorem uses_poolLocals :
    Uses self (OperationsBase.poolLocals self cls) (poolLocalsUses self) := by
  refine .ite (fun _ => ?_) fun _ => .ite (fun _ => ?_) fun _ => .pure _
  · refine .int32 fun _ => .int32 fun _ => .int32 fun _ => .int32 fun _ => ?_
    refine .int32 fun _ => .int32 fun _ => .int32 fun _ => .int32 fun _ => .int32 fun _ => ?_
    refine Follows.bind_quiet uses_useNchw fun _ => ?_
    exact Quiet.bind (quiet_ite quiet_convInputSizes (quiet_pure _)) fun _ => quiet_pure _
  · refine .int32 fun _ => .int32 fun _ => .int32 fun _ => ?_
    refine .int32 fun _ => .int32 fun _ => .int32 fun _ => ?_
    refine Follows.bind_quiet uses_useNchw fun _ => quiet_convInputSizes.bind fun _ => ?_
    exact quiet_poolImplicitPadding.bind fun _ => quiet_pure _

/-- A local that was not assigned is a fault, not a use. -/
theorem quiet_poolAttrs {l : PoolLocals} :
    Quiet Cmd.access (OperationsBase.poolAttrs l) := by
  refine quiet_readLocal.bind fun _ => quiet_readLocal.bind fun _ => ?_
  refine quiet_readLocal.bind fun _ => quiet_readLocal.bind fun _ => ?_
  refine quiet_readLocal.bind fun _ => quiet_readLocal.bind fun _ => ?_
  refine quiet_readLocal.bind fun _ => quiet_readLocal.bind fun _ => ?_
  exact quiet_readLocal.bind fun _ => quiet_pure _

/-- The activation and the transposition back, after the pooling node. -/
theorem quiet_poolTail {node : Node} {activationFn : Option Int} {useNchw : Bool} :
    Quiet Cmd.access (do
      let activationFn ← readLocal activationFn
      let outputNode ← applyActivation node activationFn
      transposeUnless useNchw .nchwNhwc outputNode) :=
  quiet_readLocal.bind fun _ => quiet_applyActivation.bind fun _ => quiet_transposeUnless

/-- The average fetches its input first. -/
theorem AveragePool2D.createNode_uses :
    Uses self (AveragePool2D.createNode self) (.node 0 :: poolLocalsUses self) := by
  refine .node fun _ => Follows.bind_quiet uses_poolLocals fun _ => ?_
  refine quiet_transposeUnless.bind fun _ => quiet_poolAttrs.bind fun _ => ?_
  exact quiet_make.bind fun _ => quiet_poolTail

/-- The maximum fetches it after the parameters. -/
theorem MaxPool2d.createNode_uses :
    Uses self (MaxPool2d.createNode self) (poolLocalsUses self ++ [.node 0]) := by
  refine uses_poolLocals.bind fun _ => .node fun _ => ?_
  refine .step quiet_transposeUnless fun _ => .step quiet_poolAttrs fun _ => ?_
  exact .make fun _ => .quiet quiet_poolTail

/-- So does L2 pooling. -/
theorem L2Pooling2D.createNode_uses :
    Uses self (L2Pooling2D.createNode self) (poolLocalsUses self ++ [.node 0]) := by
  refine uses_poolLocals.bind fun _ => .node fun _ => .make fun _ => ?_
  refine .step quiet_transposeUnless fun _ => .step quiet_poolAttrs fun _ => ?_
  exact .make fun _ => .make fun _ => .quiet quiet_poolTail

end Uses

/-! ## Fully connected -/

/-- `FullyConnected::validate`: at least two axes, the first not of size zero. -/
def FullyConnected.validate (self : OperationsBase) : Gen Bool :=
  if self.isZeroSizedInput 0 then pure false
  else pure (2 ≤ (self.getInputOperandDimensions 0).length)

/-- The product with the weights.  The input is first reshaped to rows of the
weights' width, unless it has two dimensions and its second one agrees. -/
def FullyConnected.multiplyNode (self : OperationsBase) (inputNode weightsNode : Node) :
    Gen Node := do
  let inputDims := self.getInputOperandDimensions 0
  let weightDims := self.getInputOperandDimensions 1
  let reshapes : Bool ←
    (if inputDims.length > 2 then pure true else do
      let inputWidth ← dimAt inputDims 1
      let weightWidth ← dimAt weightDims 1
      pure (inputWidth ≠ weightWidth))
  if reshapes then do
    let weightWidth ← dimAt weightDims 1
    let rows ← divInt (getNumberOfElements inputDims) weightWidth
    let weightWidth ← dimAt weightDims 1
    let reshapeConstant ← createConstNode .i32 [2] [.int rows, .int weightWidth]
    let reshapeNode ← makeShared (.reshape false) [inputNode, reshapeConstant]
    makeShared (.matMul false true) [reshapeNode, weightsNode]
  else makeShared (.matMul false true) [inputNode, weightsNode]

/-- The bias is added where it is neither omitted nor without dimensions. -/
def FullyConnected.hasBias (self : OperationsBase) : Bool :=
  ¬ self.isOmittedInput 2 ∧ (self.getInputOperandDimensions 2).length ≠ 0

/-- The bias of a quantized layer is an integer of its own scale. -/
def FullyConnected.quantizedBias (self : OperationsBase) : Bool :=
  self.checkInputOperandType 0 .tensorQuant8Asymm ∨
    self.checkInputOperandType 0 .tensorQuant8AsymmSigned

/-- The sum with the bias, where there is one. -/
def FullyConnected.addNode (self : OperationsBase) (multiplyNode : Node) : Gen Node :=
  if FullyConnected.hasBias self then do
    let biasNode ← self.getInputNode 2
    let biasNode ←
      (if FullyConnected.quantizedBias self then
        self.dequantizeNode biasNode (self.inputIndex 2) .f32
      else pure biasNode)
    makeShared .add [multiplyNode, biasNode]
  else pure multiplyNode

/-- `FULLY_CONNECTED`: product, bias and activation. -/
def FullyConnected.createNode (self : OperationsBase) : Gen Node := do
  let inputNode ← self.getInputNode 0
  let weightsNode ← self.getInputNode 1
  let multiplyNode ← FullyConnected.multiplyNode self inputNode weightsNode
  let addNode ← FullyConnected.addNode self multiplyNode
  let activationFn ← self.parseOperationInput .uint32 3
  applyActivation addNode (toInt32 activationFn)

/-- The bias, and its scale where it is quantized. -/
def FullyConnected.biasUses (self : OperationsBase) : List Use :=
  if FullyConnected.hasBias self then
    .node 2 :: (if FullyConnected.quantizedBias self then
      [.dequantize (self.inputIndex 2)] else [])
  else []

/-- The activation is read last. -/
def FullyConnected.uses (self : OperationsBase) : List Use :=
  .node 0 :: .node 1 :: (FullyConnected.biasUses self ++ [.scalar .uint32 3])

/-- The product is made of nodes that are fetched already. -/
theorem FullyConnected.multiplyNode_quiet {self : OperationsBase} {inputNode weightsNode : Node} :
    Quiet Cmd.access (FullyConnected.multiplyNode self inputNode weightsNode) := by
  refine Quiet.bind (quiet_ite (quiet_pure _) ?_) fun _ => quiet_ite ?_ quiet_make
  · exact quiet_dimAt.bind fun _ => quiet_dimAt.bind fun _ => quiet_pure _
  · refine quiet_dimAt.bind fun _ => quiet_divInt.bind fun _ => quiet_dimAt.bind fun _ => ?_
    exact quiet_const.bind fun _ => quiet_make.bind fun _ => quiet_make

/-- The uses in the order of `createNode`. -/
theorem FullyConnected.createNode_uses {self : OperationsBase} :
    Uses self (FullyConnected.createNode self) (FullyConnected.uses self) := by
  refine .node fun _ => .node fun _ => .step FullyConnected.multiplyNode_quiet fun _ => ?_
  have hbias : ∀ node, Uses self (FullyConnected.addNode self node)
      (FullyConnected.biasUses self) := by
    intro node
    refine .ite (fun _ => .node fun _ => .bindMake ?_) fun _ => .pure _
    exact .ite (fun _ => .dequantized) fun _ => .pure _
  exact (hbias _).bind fun _ => .scalar fun _ => .quiet quiet_applyActivation

end NnHal
