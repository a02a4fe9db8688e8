import NnHal.Reshaping

/-!
# Convolutions

`Conv2d`, `DepthwiseConv2d` and `GroupedConv2d` are near copies: they differ
in the positions of their inputs, in what the filter is divided by, and in the
order of the two spatial axes.  They are one program over a `ConvClass`, which
lists those differences.  `TransposeConv2D` has a signature of its own.

A local variable of the source that some path leaves unassigned is an `Option`
here, and reading it while it is `none` is a fault.
-/

namespace NnHal

open Command

/-- What one of the three convolution classes has of its own. -/
structure ConvClass where
  /-- the fewest inputs with implicit padding, and the most -/
  implicitMin : Nat
  implicitMax : Nat
  /-- the same with explicit padding -/
  explicitMin : Nat
  explicitMax : Nat
  /-- the input that is a `BOOL` where the padding is implicit -/
  layoutInput : Nat
  /-- a multiplier or a group count follows the strides -/
  hasGroups : Bool
  /-- the channel dimension of the input is read -/
  hasChannel : Bool
  /-- the filter is divided among the input channels, not among the groups -/
  dividesByChannel : Bool
  /-- an implicit scheme other than 1 and 2 leaves the paddings unassigned -/
  schemeTwo : Bool
  /-- width comes before height in strides, paddings and dilations -/
  widthFirst : Bool
  filterOrder : ConversionType
  /-- the element type of the constant that reshapes the filter -/
  shapeType : ElementType
  /-- the channel a per-channel filter has to be quantized along -/
  channelDim : Nat

/-- The local variables of a convolution. -/
structure ConvLocals where
  paddingLeft : Option Int := none
  paddingRight : Option Int := none
  paddingTop : Option Int := none
  paddingBottom : Option Int := none
  strideWidth : Option Int := none
  strideHeight : Option Int := none
  dilationWidthFactor : Int := 1
  dilationHeightFactor : Int := 1
  activationFn : Option Int := none
  numberGroups : Option Int := none
  inputChannel : Option Int := none
  useNchw : Bool := false
  autoPad : Option PadType := none

namespace OperationsBase

variable (self : OperationsBase) (cls : ConvClass)

def convExplicit : Bool :=
  cls.explicitMin ≤ self.inputsSize ∧ self.inputsSize ≤ cls.explicitMax ∧
    ¬ self.checkInputOperandType cls.layoutInput .bool

def convImplicit : Bool :=
  ¬ self.convExplicit cls ∧ cls.implicitMin ≤ self.inputsSize ∧
    self.inputsSize ≤ cls.implicitMax

/-- A `uint32_t` input stored in an `int32_t`. -/
def parseInt32 (index : Nat) : Gen Int := do
  let v ← self.parseOperationInput .uint32 index
  pure (toInt32 v)

/-- The same where the operation has the input, and `otherwise` where not. -/
def parseInt32If (b : Bool) (index : Nat) (otherwise : Int) : Gen Int :=
  if b then self.parseInt32 index else pure otherwise

/-- The optional inputs after the activation at `index`, read from the last one
down: height dilation, width dilation, layout. -/
def convTrailing (index : Nat) : Gen (Int × Int × Bool) := do
  let n := self.inputsSize
  let dilationHeightFactor ← self.parseInt32If (n = index + 4) (index + 3) 1
  let dilationWidthFactor ←
    self.parseInt32If (n = index + 3 ∨ n = index + 4) (index + 2) 1
  let layout ←
    (if n = index + 2 ∨ n = index + 3 ∨ n = index + 4 then
      self.parseOperationInput .uint8 (index + 1)
    else pure 0)
  pure (dilationHeightFactor, dilationWidthFactor, layout ≠ 0)

/-- The width, the height and the channel count of an input. -/
def convInputSizes (hasChannel useNchw : Bool) : Gen (Int × Int × Option Int) := do
  let inputDimensions := self.getInputOperandDimensions 0
  let inputWidth ← dimAt inputDimensions (if useNchw then 3 else 2)
  let inputHeight ← dimAt inputDimensions (if useNchw then 2 else 1)
  if hasChannel then do
    let inputChannel ← dimAt inputDimensions (if useNchw then 1 else 3)
    pure (toInt32 inputWidth, toInt32 inputHeight, some (toInt32 inputChannel))
  else pure (toInt32 inputWidth, toInt32 inputHeight, none)

/-- The multiplier or the group count, where the class has one. -/
def convGroups (index : Nat) : Gen (Option Int) :=
  if cls.hasGroups then some <$> self.parseInt32 index else pure none

/-- The branch with explicit padding. -/
def convExplicitLocals : Gen ConvLocals := do
  let paddingLeft ← self.parseInt32 3
  let paddingRight ← self.parseInt32 4
  let paddingTop ← self.parseInt32 5
  let paddingBottom ← self.parseInt32 6
  let strideWidth ← self.parseInt32 7
  let strideHeight ← self.parseInt32 8
  let numberGroups ← self.convGroups cls 9
  let activation := if cls.hasGroups then 10 else 9
  let activationFn ← self.parseInt32 activation
  let (dilationHeightFactor, dilationWidthFactor, useNchw) ← self.convTrailing activation
  let (_, _, inputChannel) ← self.convInputSizes cls.hasChannel useNchw
  pure { paddingLeft, paddingRight, paddingTop, paddingBottom, strideWidth, strideHeight
         dilationWidthFactor, dilationHeightFactor, activationFn, numberGroups
         inputChannel, useNchw, autoPad := some .explicit }

/-- The paddings an implicit scheme stands for, and the padding type: head and
tail of the width, then of the height. -/
def convImplicitPadding (scheme : Int) (strideWidth strideHeight : Int)
    (inputWidth inputHeight filterWidth filterHeight : Int) :
    Gen (Option ((Int × Int) × (Int × Int)) × PadType) :=
  if scheme = 1 then do
    let width ← calculateExplicitPadding inputWidth strideWidth filterWidth 1
    let height ← calculateExplicitPadding inputHeight strideHeight filterHeight 1
    pure (some (width, height), .sameUpper)
  else if cls.schemeTwo ∧ scheme ≠ 2 then pure (none, .valid)
  else pure (some ((0, 0), (0, 0)), .valid)

/-- The branch with implicit padding. -/
def convImplicitLocals (filterWidth filterHeight : Int) : Gen ConvLocals := do
  let paddingScheme ← self.parseInt32 3
  let strideWidth ← self.parseInt32 4
  let strideHeight ← self.parseInt32 5
  let numberGroups ← self.convGroups cls 6
  let activation := if cls.hasGroups then 7 else 6
  let activationFn ← self.parseInt32 activation
  let (dilationHeightFactor, dilationWidthFactor, useNchw) ← self.convTrailing activation
  let (inputWidth, inputHeight, inputChannel) ← self.convInputSizes cls.hasChannel useNchw
  let (paddings, autoPad) ← convImplicitPadding cls paddingScheme strideWidth strideHeight
    inputWidth inputHeight filterWidth filterHeight
  pure { paddingLeft := paddings.map (·.1.1), paddingRight := paddings.map (·.1.2)
         paddingTop := paddings.map (·.2.1), paddingBottom := paddings.map (·.2.2)
         strideWidth, strideHeight, dilationWidthFactor, dilationHeightFactor
         activationFn, numberGroups, inputChannel, useNchw, autoPad }

/-- The parameters of a convolution, by the padding the inputs ask for. -/
def convLocals : Gen ConvLocals := do
  let filterDimensions := self.getInputOperandDimensions 1
  let filterWidth ← dimAt filterDimensions 2
  let filterHeight ← dimAt filterDimensions 1
  if self.convExplicit cls then self.convExplicitLocals cls
  else if self.convImplicit cls then
    self.convImplicitLocals cls (toInt32 filterWidth) (toInt32 filterHeight)
  else pure {}

/-- The bias of a quantized convolution.  A per-channel filter scales it by the
product of the scales, any other quantized input by its own. -/
def convBias (biasNode : Node) : Gen Node :=
  if self.checkInputOperandType 1 .tensorQuant8SymmPerChannel then do
    let filterScales ← channelQuant (self.getInputOperand 1)
    let filterScalesNode ← createConstNode .f32 [filterScales.scales.length]
      (filterScales.scales.map .float32)
    let inputScalesNode ← createConstNode .f32 [1] [self.sModelInfo.getOperandScale 0]
    let biasScalMultiplier ← makeShared .multiply [filterScalesNode, inputScalesNode]
    let biasNode ← makeShared (.convert .f32) [biasNode]
    makeShared .multiply [biasNode, biasScalMultiplier]
  else if self.checkInputOperandType 0 .tensorQuant8Asymm ∨
      self.checkInputOperandType 0 .tensorQuant8AsymmSigned then
    self.dequantizeNode biasNode (self.inputIndex 2) .f32
  else pure biasNode

/-- `a / b` of a `size_t` by an `int32_t`. -/
def divSizeT (a : Nat) (b : Int) : Gen Nat := do
  let q ← divInt a (toSizeT b)
  pure q.toNat

/-- The filter of a grouped convolution, with the group axis in front. -/
def groupedFilter (filterNode : Node) (divisor : Int) : Gen Node := do
  let d0 ← shapeAt filterNode 0
  let d1 ← shapeAt filterNode 1
  let d2 ← shapeAt filterNode 2
  let d3 ← shapeAt filterNode 3
  let d0 ← divSizeT d0 divisor
  let shape : List Nat := [toSizeT divisor, d0, d1, d2, d3]
  let shapeNode ← makeShared
    (.constant cls.shapeType [shape.length] (shape.map fun (d : Nat) => .int d)) []
  makeShared (.reshape true) [filterNode, shapeNode]

/-- Add the bias, reshaped to the channels of the convolution, and apply the
activation. -/
def addBias (convNode biasNode : Node) (activationFn : Int) : Gen Node := do
  let outputShape ← issue (.getShape convNode)
  let bias ← dimAt (self.getInputOperandDimensions 2) 0
  faultIf (outputShape.length ≤ 1) .nodeShape
  let shape := (List.replicate outputShape.length 1).set 1 bias
  let shapeNode ←
    createConstNode .i32 [shape.length] (shape.map fun (d : Nat) => .int d)
  let biasNode ← makeShared (.reshape true) [biasNode, shapeNode]
  let outputNode ← makeShared .add [convNode, biasNode]
  applyActivation outputNode activationFn

/-- Strides, paddings and dilations in the order of the class. -/
def convAttrs (l : ConvLocals) : Gen ConvAttrs := do
  let strideHeight ← readLocal l.strideHeight
  let strideWidth ← readLocal l.strideWidth
  let paddingTop ← readLocal l.paddingTop
  let paddingLeft ← readLocal l.paddingLeft
  let paddingBottom ← readLocal l.paddingBottom
  let paddingRight ← readLocal l.paddingRight
  let autoPad ← readLocal l.autoPad
  let order {α : Type} (height width : α) : List α :=
    if cls.widthFirst then [width, height] else [height, width]
  pure { strides := order (toSizeT strideHeight) (toSizeT strideWidth)
         padsBegin := order paddingTop paddingLeft
         padsEnd := order paddingBottom paddingRight
         dilations := order (toSizeT l.dilationHeightFactor) (toSizeT l.dilationWidthFactor)
         autoPad }

/-- The three convolution classes. -/
def convNode : Gen Node := do
  let l ← self.convLocals cls
  let inputNode ← self.getInputNode 0
  let filterNode ← self.getInputNode 1
  let biasNode ← self.getInputNode 2
  let biasNode ← self.convBias biasNode
  let filterNode ← transpose cls.filterOrder filterNode
  let inputNode ← transposeUnless l.useNchw .nhwcNchw inputNode
  let attrs ← convAttrs cls l
  let convNode ←
    (if cls.hasGroups then do
      let divisor ← readLocal (if cls.dividesByChannel then l.inputChannel else l.numberGroups)
      let filterNode ← groupedFilter cls filterNode divisor
      makeShared (.groupConvolution attrs) [inputNode, filterNode]
    else makeShared (.convolution attrs) [inputNode, filterNode])
  let activationFn ← readLocal l.activationFn
  let outputNode ← self.addBias convNode biasNode activationFn
  transposeUnless l.useNchw .nchwNhwc outputNode

end OperationsBase

/-! ## The classes -/

def Conv2d.cls : ConvClass where
  implicitMin := 7
  implicitMax := 10
  explicitMin := 10
  explicitMax := 13
  layoutInput := 7
  hasGroups := false
  hasChannel := false
  dividesByChannel := false
  schemeTwo := false
  widthFirst := false
  filterOrder := .ohwiOihw
  shapeType := .i32
  channelDim := 0

def DepthwiseConv2d.cls : ConvClass where
  implicitMin := 8
  implicitMax := 11
  explicitMin := 11
  explicitMax := 14
  layoutInput := 8
  hasGroups := true
  hasChannel := true
  dividesByChannel := true
  schemeTwo := false
  widthFirst := false
  filterOrder := .ihwoOihw
  shapeType := .i32
  channelDim := 3

def GroupedConv2d.cls : ConvClass where
  implicitMin := 8
  implicitMax := 9
  explicitMin := 11
  explicitMax := 12
  layoutInput := 8
  hasGroups := true
  hasChannel := true
  dividesByChannel := false
  schemeTwo := true
  widthFirst := true
  filterOrder := .ohwiOihw
  shapeType := .i64
  channelDim := 0

def Conv2d.createNode (self : OperationsBase) : Gen Node := self.convNode Conv2d.cls
def DepthwiseConv2d.createNode (self : OperationsBase) : Gen Node :=
  self.convNode DepthwiseConv2d.cls
def GroupedConv2d.createNode (self : OperationsBase) : Gen Node :=
  self.convNode GroupedConv2d.cls

/-- Both the input and the filter have four dimensions. -/
def convRanks (self : OperationsBase) : Bool :=
  (self.getInputOperandDimensions 0).length = 4 ∧
    (self.getInputOperandDimensions 1).length = 4

/-- A per-channel filter has to be quantized along the channel of the class. -/
def convChannelDim (self : OperationsBase) (channelDim : Nat) : Gen Bool :=
  if self.checkInputOperandType 1 .tensorQuant8SymmPerChannel then do
    let params ← OperationsBase.channelQuant (self.getInputOperand 1)
    pure (params.channelDim = channelDim)
  else pure true

def Conv2d.validate (self : OperationsBase) : Gen Bool :=
  if ¬ convRanks self then pure false
  else if ¬ self.isValidInputTensor 0 ∨ ¬ self.isValidInputTensor 1 then pure false
  else convChannelDim self Conv2d.cls.channelDim

def DepthwiseConv2d.validate (self : OperationsBase) : Gen Bool := do
  if ¬ convRanks self then pure false
  else do
    let filter ← dimAt (self.getInputOperandDimensions 1) 0
    if filter ≠ 1 then pure false
    else convChannelDim self DepthwiseConv2d.cls.channelDim

def GroupedConv2d.validate (self : OperationsBase) : Gen Bool :=
  if ¬ convRanks self then pure false
  else convChannelDim self GroupedConv2d.cls.channelDim

/-! ## What the classes use -/

def convTrailingUses (self : OperationsBase) (index : Nat) : List Use :=
  (if self.inputsSize = index + 4 then [.scalar .uint32 (index + 3)] else []) ++
    ((if self.inputsSize = index + 3 ∨ self.inputsSize = index + 4 then
        [.scalar .uint32 (index + 2)] else []) ++
      (if self.inputsSize = index + 2 ∨ self.inputsSize = index + 3 ∨
          self.inputsSize = index + 4 then [.scalar .uint8 (index + 1)] else []))

def convGroupsUses (cls : ConvClass) (index : Nat) : List Use :=
  if cls.hasGroups then [.scalar .uint32 index] else []

/-- The reads after the strides: group count, activation and the rest. -/
def convTailUses (cls : ConvClass) (self : OperationsBase) (index : Nat) : List Use :=
  let activation := if cls.hasGroups then index + 1 else index
  convGroupsUses cls index ++ .scalar .uint32 activation :: convTrailingUses self activation

def convLocalsUses (cls : ConvClass) (self : OperationsBase) : List Use :=
  if self.convExplicit cls then
    .scalar .uint32 3 :: .scalar .uint32 4 :: .scalar .uint32 5 :: .scalar .uint32 6 ::
      .scalar .uint32 7 :: .scalar .uint32 8 :: convTailUses cls self 9
  else if self.convImplicit cls then
    .scalar .uint32 3 :: .scalar .uint32 4 :: .scalar .uint32 5 :: convTailUses cls self 6
  else []

def convBiasUses (self : OperationsBase) : List Use :=
  if self.checkInputOperandType 1 .tensorQuant8SymmPerChannel then [.channelQuant 1]
  else if self.checkInputOperandType 0 .tensorQuant8Asymm ∨
      self.checkInputOperandType 0 .tensorQuant8AsymmSigned then
    [.dequantize (self.inputIndex 2)]
  else []

def convUses (cls : ConvClass) (self : OperationsBase) : List Use :=
  convLocalsUses cls self ++ (.node 0 :: .node 1 :: .node 2 :: convBiasUses self)

section Uses

variable {self : OperationsBase} {cls : ConvClass} {α : Type} {us : List Use}

theorem uses_parseInt32 {index : Nat} :
    Uses self (self.parseInt32 index) [.scalar .uint32 index] :=
  .scalar fun _ => .pure _

theorem Uses.int32 {index : Nat} {f : Int → Gen α} (hf : ∀ v, Uses self (f v) us) :
    Uses self (self.parseInt32 index >>= f) (.scalar .uint32 index :: us) :=
  uses_parseInt32.bind hf

theorem uses_parseInt32If {P : Prop} {_ : Decidable P} {index : Nat} {otherwise : Int} :
    Uses self (self.parseInt32If P index otherwise)
      (if P then [.scalar .uint32 index] else []) := by
  unfold OperationsBase.parseInt32If
  by_cases hP : P
  · simpa [hP] using uses_parseInt32
  · simpa [hP] using Uses.pure otherwise

theorem uses_convTrailing {index : Nat} :
    Uses self (self.convTrailing index) (convTrailingUses self index) := by
  refine uses_parseInt32If.bind fun _ => uses_parseInt32If.bind fun _ => ?_
  refine Follows.bind_quiet (Uses.ite (fun _ => ?_) fun _ => Uses.pure _) fun _ => quiet_pure _
  exact uses_parseOperationInput

theorem quiet_convInputSizes {hasChannel useNchw : Bool} :
    Quiet Cmd.access (self.convInputSizes hasChannel useNchw) := by
  refine quiet_dimAt.bind fun _ => quiet_dimAt.bind fun _ => ?_
  exact quiet_ite (quiet_dimAt.bind fun _ => quiet_pure _) (quiet_pure _)

theorem uses_convGroups {index : Nat} :
    Uses self (OperationsBase.convGroups self cls index) (convGroupsUses cls index) := by
  unfold OperationsBase.convGroups convGroupsUses
  exact .ite (fun _ => Follows.map uses_parseInt32) fun _ => .pure _

theorem quiet_convImplicitPadding {scheme strideWidth strideHeight inputWidth inputHeight
    filterWidth filterHeight : Int} :
    Quiet Cmd.access (OperationsBase.convImplicitPadding cls scheme strideWidth strideHeight
      inputWidth inputHeight filterWidth filterHeight) := by
  unfold OperationsBase.convImplicitPadding
  refine quiet_ite (quiet_calculateExplicitPadding.bind fun _ => ?_)
    (quiet_ite (quiet_pure _) (quiet_pure _))
  exact quiet_calculateExplicitPadding.bind fun _ => quiet_pure _

/-- The reads both branches end with. -/
theorem uses_convTail {index : Nat} {f : Option Int → Int → Int × Int × Bool → Gen α}
    (hf : ∀ g a t, Quiet Cmd.access (f g a t)) :
    Uses self (do
      let numberGroups ← OperationsBase.convGroups self cls index
      let activation := if cls.hasGroups then index + 1 else index
      let activationFn ← self.parseInt32 activation
      let trailing ← self.convTrailing activation
      f numberGroups activationFn trailing) (convTailUses cls self index) :=
  uses_convGroups.bind fun _ => .int32 fun _ =>
    Follows.bind_quiet uses_convTrailing fun _ => hf _ _ _

theorem uses_convLocals : Uses self (OperationsBase.convLocals self cls)
    (convLocalsUses cls self) := by
  refine .step quiet_dimAt fun _ => .step quiet_dimAt fun _ => ?_
  refine .ite (fun _ => ?_) fun _ => .ite (fun _ => ?_) fun _ => .pure _
  · refine .int32 fun _ => .int32 fun _ => .int32 fun _ => .int32 fun _ => ?_
    refine .int32 fun _ => .int32 fun _ => uses_convTail fun _ _ _ => ?_
    exact quiet_convInputSizes.bind fun _ => quiet_pure _
  · refine .int32 fun _ => .int32 fun _ => .int32 fun _ => uses_convTail fun _ _ _ => ?_
    refine quiet_convInputSizes.bind fun _ => ?_
    exact quiet_convImplicitPadding.bind fun _ => quiet_pure _

theorem uses_convBias {biasNode : Node} :
    Uses self (self.convBias biasNode) (convBiasUses self) := by
  refine .ite (fun _ => ?_) fun _ => .ite (fun _ => .dequantized) fun _ => .pure _
  refine .cons (follows_channelQuant _) fun _ => .const fun _ => .const fun _ => ?_
  exact .make fun _ => .make fun _ => .quiet quiet_make

theorem quiet_groupedFilter {filterNode : Node} {divisor : Int} :
    Quiet Cmd.access (OperationsBase.groupedFilter cls filterNode divisor) := by
  refine quiet_shapeAt.bind fun _ => quiet_shapeAt.bind fun _ => quiet_shapeAt.bind fun _ => ?_
  refine quiet_shapeAt.bind fun _ => Quiet.bind (quiet_divInt.bind fun _ => quiet_pure _) ?_
  exact fun _ => quiet_make.bind fun _ => quiet_make

theorem quiet_addBias {convNode biasNode : Node} {activationFn : Int} :
    Quiet Cmd.access (self.addBias convNode biasNode activationFn) := by
  refine quiet_getShape.bind fun _ => quiet_dimAt.bind fun _ => (quiet_faultIf rfl).bind fun _ => ?_
  refine quiet_const.bind fun _ => quiet_make.bind fun _ => quiet_make.bind fun _ => ?_
  exact quiet_applyActivation

theorem quiet_convAttrs {l : ConvLocals} :
    Quiet Cmd.access (OperationsBase.convAttrs cls l) := by
  refine quiet_readLocal.bind fun _ => quiet_readLocal.bind fun _ => ?_
  refine quiet_readLocal.bind fun _ => quiet_readLocal.bind fun _ => ?_
  refine quiet_readLocal.bind fun _ => quiet_readLocal.bind fun _ => ?_
  exact quiet_readLocal.bind fun _ => quiet_pure _

theorem uses_convNode : Uses self (OperationsBase.convNode self cls) (convUses cls self) := by
  refine uses_convLocals.bind fun _ => .node fun _ => .node fun _ => .node fun _ => ?_
  refine Follows.bind_quiet uses_convBias fun _ => ?_
  refine quiet_transpose.bind fun _ => quiet_transposeUnless.bind fun _ => ?_
  refine quiet_convAttrs.bind fun _ => Quiet.bind (quiet_ite ?_ quiet_make) fun _ => ?_
  · exact quiet_readLocal.bind fun _ => quiet_groupedFilter.bind fun _ => quiet_make
  · exact quiet_readLocal.bind fun _ => quiet_addBias.bind fun _ => quiet_transposeUnless

end Uses

/-! ## Transposed convolution -/

def TransposeConv2D.validate (self : OperationsBase) : Gen Bool := do
  if ¬ convRanks self then pure false
  else if ¬ self.isValidInputTensor 0 ∨ ¬ self.isValidInputTensor 1 then pure false
  else do
    let channelDim ← convChannelDim self 0
    let inputDimensions := self.getInputOperandDimensions 0
    if ¬ channelDim then pure false
    else pure (¬ (inputDimensions.getD 1 0 = 1 ∧ inputDimensions.getD 2 0 = 1 ∧
      inputDimensions.getD 3 0 = 1))

/-- The branch with explicit padding. -/
def TransposeConv2D.explicitLocals (self : OperationsBase) : Gen (ConvLocals × Option Node) := do
  let paddingLeft ← self.parseInt32 3
  let paddingRight ← self.parseInt32 4
  let paddingTop ← self.parseInt32 5
  let paddingBottom ← self.parseInt32 6
  let strideWidth ← self.parseInt32 7
  let strideHeight ← self.parseInt32 8
  let activationFn ← self.parseInt32 9
  let layout ← self.parseOperationInput .uint8 10
  let _ ← self.convInputSizes false (layout ≠ 0)
  pure ({ paddingLeft, paddingRight, paddingTop, paddingBottom, strideWidth, strideHeight
          activationFn, useNchw := layout ≠ 0, autoPad := some .explicit }, none)

/-- The branch with implicit padding, which also makes the node of the output's
spatial shape. -/
def TransposeConv2D.implicitLocals (self : OperationsBase) : Gen (ConvLocals × Option Node) := do
  let outputShape ← self.getConstVecInput .int32 3
  let paddingScheme ← self.parseInt32 4
  let strideWidth ← self.parseInt32 5
  let strideHeight ← self.parseInt32 6
  let activationFn ← self.parseInt32 7
  let layout ← self.parseOperationInput .uint8 8
  let useNchw : Bool := layout ≠ 0
  let height ← elementAt outputShape (if useNchw then 2 else 1)
  let width ← elementAt outputShape (if useNchw then 3 else 2)
  let outputShapeNode ← createConstNode .i32 [2] [.int height, .int width]
  pure ({ paddingLeft := some 0, paddingRight := some 0, paddingTop := some 0
          paddingBottom := some 0, strideWidth, strideHeight, activationFn, useNchw
          autoPad := some (if paddingScheme = 1 then .sameUpper else .valid) },
    some outputShapeNode)

def TransposeConv2D.locals (self : OperationsBase) : Gen (ConvLocals × Option Node) := do
  let filterDimensions := self.getInputOperandDimensions 1
  let _ ← dimAt filterDimensions 2
  let _ ← dimAt filterDimensions 1
  if self.inputsSize = 11 then TransposeConv2D.explicitLocals self
  else if self.inputsSize = 9 then TransposeConv2D.implicitLocals self
  else pure ({}, none)

/-- The order in which the attributes are given is that of `Conv2d`; without an
output shape the padding type is not passed on and stays explicit. -/
def TransposeConv2D.createNode (self : OperationsBase) : Gen Node := do
  let (l, outputShapeNode) ← TransposeConv2D.locals self
  let inputNode ← self.getInputNode 0
  let filterNode ← self.getInputNode 1
  let biasNode ← self.getInputNode 2
  let biasNode ← self.convBias biasNode
  let filterNode ← transpose .ihwoOihw filterNode
  let inputNode ← transposeUnless l.useNchw .nhwcNchw inputNode
  let transposeConvNode ←
    (match outputShapeNode with
    | none => do
        let attrs ← OperationsBase.convAttrs Conv2d.cls { l with autoPad := some .explicit }
        makeShared (.convolutionBackpropData attrs) [inputNode, filterNode]
    | some outputShapeNode => do
        let attrs ← OperationsBase.convAttrs Conv2d.cls l
        makeShared (.convolutionBackpropData attrs) [inputNode, filterNode, outputShapeNode])
  let activationFn ← readLocal l.activationFn
  let outputNode ← self.addBias transposeConvNode biasNode activationFn
  transposeUnless l.useNchw .nchwNhwc outputNode

def TransposeConv2D.localsUses (self : OperationsBase) : List Use :=
  if self.inputsSize = 11 then
    [.scalar .uint32 3, .scalar .uint32 4, .scalar .uint32 5, .scalar .uint32 6,
      .scalar .uint32 7, .scalar .uint32 8, .scalar .uint32 9, .scalar .uint8 10]
  else if self.inputsSize = 9 then
    [.vector .int32 3, .scalar .uint32 4, .scalar .uint32 5, .scalar .uint32 6,
      .scalar .uint32 7, .scalar .uint8 8]
  else []

def TransposeConv2D.uses (self : OperationsBase) : List Use :=
  TransposeConv2D.localsUses self ++ (.node 0 :: .node 1 :: .node 2 :: convBiasUses self)

theorem TransposeConv2D.locals_uses {self : OperationsBase} :
    Uses self (TransposeConv2D.locals self) (TransposeConv2D.localsUses self) := by
  refine .step quiet_dimAt fun _ => .step quiet_dimAt fun _ => ?_
  refine .ite (fun _ => ?_) fun _ => .ite (fun _ => ?_) fun _ => .pure _
  · refine .int32 fun _ => .int32 fun _ => .int32 fun _ => .int32 fun _ => ?_
    refine .int32 fun _ => .int32 fun _ => .int32 fun _ => .scalar fun _ => ?_
    exact .step quiet_convInputSizes fun _ => .pure _
  · refine .vector fun _ => .int32 fun _ => .int32 fun _ => .int32 fun _ => ?_
    refine .int32 fun _ => .scalar fun _ => .step quiet_elementAt fun _ => ?_
    exact .step quiet_elementAt fun _ => .const fun _ => .pure _

theorem TransposeConv2D.createNode_uses {self : OperationsBase} :
    Uses self (TransposeConv2D.createNode self) (TransposeConv2D.uses self) := by
  apply TransposeConv2D.locals_uses.bind
  intro l
  refine .node fun _ => .node fun _ => .node fun _ => ?_
  refine Follows.bind_quiet uses_convBias fun _ => ?_
  refine quiet_transpose.bind fun _ => quiet_transposeUnless.bind fun _ => ?_
  refine Quiet.bind ?_ fun _ => ?_
  · cases l.2 with
    | none => exact quiet_convAttrs.bind fun _ => quiet_make
    | some _ => exact quiet_convAttrs.bind fun _ => quiet_make
  · exact quiet_readLocal.bind fun _ => quiet_addBias.bind fun _ => quiet_transposeUnless

end NnHal
