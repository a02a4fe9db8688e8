import NnHal.Reshaping

/-!
# Regrouping and resampling

The classes that exchange channels, space and batch, the two resizing ones,
and the two that sample regions of interest.  All of them work on a layout:
an NHWC input is transposed before the node is built and back after it.
-/

namespace NnHal

open Command

/-! ## Space, depth and batch -/

/-- `DepthToSpace` and `SpaceToDepth`: the layout is read before the input. -/
def OperationsBase.blockNode (self : OperationsBase) (op : Nat → NodeOp) : Gen Node := do
  let useNchw ← self.useNchw 3 2
  let input ← self.getInputNode 0
  let blockSize ← self.parseOperationInput .uint32 1
  let input ← transposeUnless useNchw .nhwcNchw input
  let outputNode ← makeShared (op blockSize.toNat) [input]
  transposeUnless useNchw .nchwNhwc outputNode

/-- `DEPTH_TO_SPACE` and `SPACE_TO_DEPTH` differ in the node only. -/
def DepthToSpace.createNode (self : OperationsBase) : Gen Node :=
  self.blockNode .depthToSpace
def SpaceToDepth.createNode (self : OperationsBase) : Gen Node :=
  self.blockNode .spaceToDepth

/-- The flag of the layout, the input and the size of the blocks. -/
def blockUses (self : OperationsBase) : List Use :=
  layoutUses self 3 2 ++ [.node 0, .scalar .uint32 1]

/-- The layout is asked for first. -/
theorem uses_blockNode {self : OperationsBase} {op : Nat → NodeOp} :
    Uses self (self.blockNode op) (blockUses self) := by
  refine uses_useNchw.bind fun _ => .node fun _ => .scalar fun _ => ?_
  refine .step quiet_transposeUnless fun _ => .make fun _ => ?_
  exact .quiet quiet_transposeUnless

def BatchToSpace.validate (self : OperationsBase) : Gen Bool :=
  if (self.getInputOperandDimensions 0).length ≠ 4 then pure false
  else pure (self.isInputConst 1)

/-- `BATCH_TO_SPACE_ND`, with nothing cropped. -/
def BatchToSpace.createNode (self : OperationsBase) : Gen Node := do
  let inputNode ← self.getInputNode 0
  let inDims := self.getInputOperandDimensions 0
  let blockShape ← self.getConstVecInput .int32 1
  let useNchw ← self.useNchw 3 2
  let zeros := List.replicate inDims.length (Scalar.int 0)
  let blockShapeNode ←
    createConstNode .i64 [inDims.length] ((1 :: 1 :: blockShape).map .int)
  let cropBegin ← createConstNode .i64 [inDims.length] zeros
  let cropEnd ← createConstNode .i64 [inDims.length] zeros
  let inputNode ← transposeUnless useNchw .nhwcNchw inputNode
  let outputNode ← makeShared .batchToSpace [inputNode, blockShapeNode, cropBegin, cropEnd]
  transposeUnless useNchw .nchwNhwc outputNode

/-- The sizes of the blocks are read as a vector. -/
def BatchToSpace.uses (self : OperationsBase) : List Use :=
  .node 0 :: .vector .int32 1 :: layoutUses self 3 2

/-- The crops are the code's own zeros. -/
theorem BatchToSpace.createNode_uses {self : OperationsBase} :
    Uses self (BatchToSpace.createNode self) (BatchToSpace.uses self) := by
  refine .node fun _ => .vector fun _ => ?_
  rw [← List.append_nil (layoutUses self 3 2)]
  refine uses_useNchw.bind fun _ => .const fun _ => .const fun _ => .const fun _ => ?_
  refine .step quiet_transposeUnless fun _ => .make fun _ => ?_
  exact .quiet quiet_transposeUnless

def SpaceToBatch.validate (self : OperationsBase) : Gen Bool :=
  if (self.getInputOperandDimensions 0).length ≠ 4 then pure false
  else if ¬ self.isInputConst 1 then pure false
  else pure (self.isInputConst 2)

/-- `SPACE_TO_BATCH_ND`, with the paddings of the model. -/
def SpaceToBatch.createNode (self : OperationsBase) : Gen Node := do
  let inputNode ← self.getInputNode 0
  let inDims := self.getInputOperandDimensions 0
  let blockShape ← self.getConstVecInput .int32 1
  let pads ← self.getConstVecInput .int32 2
  let blockShapeNode ←
    createConstNode .i64 [inDims.length] ((1 :: 1 :: blockShape).map .int)
  let padBegin ←
    createConstNode .i64 [inDims.length] ((0 :: 0 :: (splitPairs pads).1).map .int)
  let padEnd ←
    createConstNode .i64 [inDims.length] ((0 :: 0 :: (splitPairs pads).2).map .int)
  let useNchw ← self.useNchw 4 3
  let inputNode ← transposeUnless useNchw .nhwcNchw inputNode
  let outputNode ← makeShared .spaceToBatch [inputNode, blockShapeNode, padBegin, padEnd]
  transposeUnless useNchw .nchwNhwc outputNode

/-- The paddings are read as a vector too. -/
def SpaceToBatch.uses (self : OperationsBase) : List Use :=
  .node 0 :: .vector .int32 1 :: .vector .int32 2 :: layoutUses self 4 3

/-- Both vectors are read before a node is made. -/
theorem SpaceToBatch.createNode_uses {self : OperationsBase} :
    Uses self (SpaceToBatch.createNode self) (SpaceToBatch.uses self) := by
  refine .node fun _ => .vector fun _ => .vector fun _ => ?_
  refine .const fun _ => .const fun _ => .const fun _ => ?_
  rw [← List.append_nil (layoutUses self 4 3)]
  refine uses_useNchw.bind fun _ => .step quiet_transposeUnless fun _ => .make fun _ => ?_
  exact .quiet quiet_transposeUnless

/-! ## Channels -/

/-- `ChannelShuffle::validate`: the axis is read once the rank is known to be
between one and four. -/
def ChannelShuffle.validate (self : OperationsBase) : Gen Bool := do
  let inputRank := (self.getInputOperandDimensions 0).length
  if inputRank > 4 ∨ inputRank ≤ 0 then pure false
  else do
    let axis ← self.parseOperationInput .int32 2
    pure (-(inputRank : Int) ≤ axis ∧ axis < inputRank)

/-- The axes that bring an input of lower rank to rank four; rank zero has no
case and leaves the pointer null. -/
def ChannelShuffle.squeezeAxes (inputRank : Nat) : Gen Node :=
  match inputRank with
  | 1 => makeShared (.constant .i64 [3] [.int 1, .int 2, .int 3]) []
  | 2 => makeShared (.constant .i64 [2] [.int 2, .int 3]) []
  | 3 => makeShared (.constant .i64 [1] [.int 3]) []
  | _ => deref none

/-- `CHANNEL_SHUFFLE`: a lower rank is brought to four and back. -/
def ChannelShuffle.createNode (self : OperationsBase) : Gen Node := do
  let inputNode ← self.getInputNode 0
  let group ← self.parseOperationInput .int32 1
  let axis ← self.parseOperationInput .int32 2
  let inputRank := (self.getInputOperandDimensions 0).length
  let axis := if axis ≥ 0 then axis else axis + inputRank
  if inputRank < 4 then do
    let squeezeAxes ← ChannelShuffle.squeezeAxes inputRank
    let inputNode ← makeShared .unsqueeze [inputNode, squeezeAxes]
    let outputNode ← makeShared (.shuffleChannels axis group) [inputNode]
    makeShared .squeeze [outputNode, squeezeAxes]
  else makeShared (.shuffleChannels axis group) [inputNode]

/-- The input, the groups and the axis. -/
def ChannelShuffle.uses : List Use := [.node 0, .scalar .int32 1, .scalar .int32 2]

/-- The axes that are added are the code's own. -/
theorem ChannelShuffle.createNode_uses {self : OperationsBase} :
    Uses self (ChannelShuffle.createNode self) ChannelShuffle.uses := by
  have haxes : ∀ inputRank, Quiet Cmd.access (ChannelShuffle.squeezeAxes inputRank) := by
    intro inputRank
    unfold ChannelShuffle.squeezeAxes
    split <;> first | exact quiet_make | exact quiet_deref
  refine .node fun _ => .scalar fun _ => .scalar fun _ => .quiet (quiet_ite ?_ quiet_make)
  exact (haxes _).bind fun _ => quiet_make.bind fun _ => quiet_make.bind fun _ => quiet_make

/-! ## Resizing -/

/-- The two flags and the layout of a resize, read from the last input down. -/
structure ResizeFlags where
  halfPixel : Bool := false
  alignCorners : Bool := false
  useNchw : Bool := false

/-- The switch over the number of inputs, whose cases fall through. -/
def OperationsBase.resizeFlags (self : OperationsBase) : Gen ResizeFlags := do
  let halfPixel ←
    (if self.inputsSize = 6 then self.parseOperationInput .uint8 5 else pure 0)
  let alignCorners ←
    (if self.inputsSize = 6 ∨ self.inputsSize = 5 then self.parseOperationInput .uint8 4
    else pure 0)
  let layout ←
    (if self.inputsSize = 6 ∨ self.inputsSize = 5 ∨ self.inputsSize = 4 then
      self.parseOperationInput .uint8 3
    else pure 0)
  pure { halfPixel := halfPixel ≠ 0, alignCorners := alignCorners ≠ 0, useNchw := layout ≠ 0 }

/-- The flags that the number of inputs reaches. -/
def resizeFlagsUses (self : OperationsBase) : List Use :=
  (if self.inputsSize = 6 then [.scalar .uint8 5] else []) ++
    ((if self.inputsSize = 6 ∨ self.inputsSize = 5 then [.scalar .uint8 4] else []) ++
      (if self.inputsSize = 6 ∨ self.inputsSize = 5 ∨ self.inputsSize = 4 then
        [.scalar .uint8 3] else []))

/-- Each flag is read where its input is there. -/
theorem uses_resizeFlags {self : OperationsBase} :
    Uses self self.resizeFlags (resizeFlagsUses self) := by
  have hread : ∀ {b : Prop} {_ : Decidable b} {input : Nat},
      Uses self (if b then self.parseOperationInput .uint8 input else pure 0)
        (if b then [.scalar .uint8 input] else []) :=
    fun {_} {_} {_} => .ite (fun _ => uses_parseOperationInput) fun _ => .pure _
  refine hread.bind fun _ => hread.bind fun _ => ?_
  exact Follows.bind_quiet hread fun _ => quiet_pure _

/-- The requested width and height, and the two scales.  A float request is
scaled and truncated; the scales are then taken from the truncated sizes. -/
structure ResizeSizes where
  outWidth : Scalar := .int 0
  outHeight : Scalar := .int 0
  widthScale : Scalar := .float32 0
  heightScale : Scalar := .float32 0

/-- The type of the first size input selects how the sizes are read. -/
def OperationsBase.resizeSizes (self : OperationsBase) (inputWidth inputHeight : Int) :
    Gen ResizeSizes :=
  let scaled (T : CType) : Gen ResizeSizes := do
    let widthScale ← self.parseOperationInput T 1
    let heightScale ← self.parseOperationInput T 2
    let outWidth := Scalar.toInt (.mul (.int inputWidth) (T.scalar widthScale))
    let outHeight := Scalar.toInt (.mul (.int inputHeight) (T.scalar heightScale))
    pure { outWidth, outHeight
           widthScale := .div (.toFloat outWidth) (.toFloat (.int inputWidth))
           heightScale := .div (.toFloat outHeight) (.toFloat (.int inputHeight)) }
  match (self.getInputOperand 1).type with
  | .float32 => scaled .float32
  | .float16 => scaled .float16
  | .int32 => do
      let outWidth ← self.parseOperationInput .int32 1
      let outHeight ← self.parseOperationInput .int32 2
      pure { outWidth := .int outWidth, outHeight := .int outHeight
             widthScale := .div (.toFloat (.int outWidth)) (.toFloat (.int inputWidth))
             heightScale := .div (.toFloat (.int outHeight)) (.toFloat (.int inputHeight)) }
  | _ => pure {}

/-- Two numbers of the type the second input has. -/
def resizeSizesUses (self : OperationsBase) : List Use :=
  match (self.getInputOperand 1).type with
  | .float32 => [.scalar .float32 1, .scalar .float32 2]
  | .float16 => [.scalar .float16 1, .scalar .float16 2]
  | .int32 => [.scalar .int32 1, .scalar .int32 2]
  | _ => []

/-- Another type than these three reads nothing. -/
theorem uses_resizeSizes {self : OperationsBase} {inputWidth inputHeight : Int} :
    Uses self (self.resizeSizes inputWidth inputHeight) (resizeSizesUses self) := by
  unfold OperationsBase.resizeSizes resizeSizesUses
  cases (self.getInputOperand 1).type
  case float32 | float16 | int32 => exact .scalar fun _ => .scalar fun _ => .pure _
  all_goals exact .pure _

/-- The scales as a node; a type no branch names leaves the pointer null. -/
def OperationsBase.resizeScaleNode (self : OperationsBase) (sizes : ResizeSizes) :
    Gen Node :=
  match (self.getInputOperand 1).type with
  | .float16 => createConstNode .f16 [2] [sizes.heightScale, sizes.widthScale]
  | .float32 | .int32 => createConstNode .f32 [2] [sizes.heightScale, sizes.widthScale]
  | _ => deref none

/-- The factors are computed. -/
theorem quiet_resizeScaleNode {self : OperationsBase} {sizes : ResizeSizes} :
    Quiet Cmd.access (self.resizeScaleNode sizes) := by
  unfold OperationsBase.resizeScaleNode
  split <;> first | exact quiet_const | exact quiet_deref

/-- The body the two resizing classes share: `attrs` makes the attributes from
the flags. -/
def OperationsBase.resizeNode (self : OperationsBase)
    (resizeSizes : Int → Int → Gen ResizeSizes) (attrs : ResizeFlags → InterpolateAttrs) :
    Gen Node := do
  let inputDimensions := self.getInputOperandDimensions 0
  let inputNode ← self.getInputNode 0
  let flags ← self.resizeFlags
  let inputWidth ← dimAt inputDimensions (if flags.useNchw then 3 else 2)
  let inputHeight ← dimAt inputDimensions (if flags.useNchw then 2 else 1)
  let inputNode ← transposeUnless flags.useNchw .nhwcNchw inputNode
  let sizes ← resizeSizes (toInt32 inputWidth) (toInt32 inputHeight)
  let outputShapeNode ← createConstNode .i32 [2] [sizes.outHeight, sizes.outWidth]
  let scaleNode ← self.resizeScaleNode sizes
  let axesNode ← createConstNode .i32 [2] [.int 2, .int 3]
  let outputNode ← makeShared (.interpolate (attrs flags))
    [inputNode, outputShapeNode, scaleNode, axesNode]
  transposeUnless flags.useNchw .nchwNhwc outputNode

/-- The coordinate mode both classes choose. -/
def ResizeFlags.coordinateMode (flags : ResizeFlags) : CoordinateTransformMode :=
  if flags.alignCorners then .alignCorners
  else if flags.halfPixel then .halfPixel
  else .asymmetric

/-- The rank both classes take. -/
def resizeValidate (self : OperationsBase) : Gen Bool :=
  pure ((self.getInputOperandDimensions 0).length = 4)

/-- Both resizes are checked alike, up to the flags. -/
def ResizeBilinear.validate (self : OperationsBase) : Gen Bool := resizeValidate self

/-- `ResizeBilinear::createNode`: the shape calculation mode is set only in the
branches that name the type of the size input. -/
def ResizeBilinear.createNode (self : OperationsBase) : Gen Node :=
  self.resizeNode self.resizeSizes fun flags =>
    { sizes := (self.getInputOperand 1).type ∈
        [OperandType.float32, .float16, .int32]
      mode := .linear
      coordinateTransformationMode := flags.coordinateMode }

def ResizeNearestNeighbor.validate (self : OperationsBase) : Gen Bool :=
  resizeValidate self

/-- `ResizeNearestNeighbor` takes the scales after the branches, so a type that
no branch names still divides zero by the input's size. -/
def ResizeNearestNeighbor.resizeSizes (self : OperationsBase)
    (inputWidth inputHeight : Int) : Gen ResizeSizes := do
  let sizes ← self.resizeSizes inputWidth inputHeight
  pure { sizes with
    widthScale := .div (.toFloat sizes.outWidth) (.toFloat (.int inputWidth))
    heightScale := .div (.toFloat sizes.outHeight) (.toFloat (.int inputHeight)) }

def ResizeNearestNeighbor.createNode (self : OperationsBase) : Gen Node :=
  self.resizeNode (ResizeNearestNeighbor.resizeSizes self) fun flags =>
    { sizes := true
      mode := .nearest
      coordinateTransformationMode := flags.coordinateMode
      nearestMode :=
        if flags.alignCorners ∨ flags.halfPixel then .roundPreferCeil else .floor }

/-- The input, the flags from the last one down, and the sizes. -/
def resizeUses (self : OperationsBase) : List Use :=
  .node 0 :: (resizeFlagsUses self ++ resizeSizesUses self)

/-- Both resizes use the same, whatever the attributes are. -/
theorem uses_resizeNode {self : OperationsBase}
    {resizeSizes : Int → Int → Gen ResizeSizes} {attrs : ResizeFlags → InterpolateAttrs}
    (hsizes : ∀ w h, Uses self (resizeSizes w h) (resizeSizesUses self)) :
    Uses self (self.resizeNode resizeSizes attrs) (resizeUses self) := by
  refine .node fun _ => uses_resizeFlags.bind fun _ => ?_
  refine .step quiet_dimAt fun _ => .step quiet_dimAt fun _ => ?_
  refine .step quiet_transposeUnless fun _ => Follows.bind_quiet (hsizes _ _) fun _ => ?_
  refine quiet_const.bind fun _ => quiet_resizeScaleNode.bind fun _ => ?_
  exact quiet_const.bind fun _ => quiet_make.bind fun _ => quiet_transposeUnless

/-- The bilinear resize. -/
theorem ResizeBilinear.createNode_uses {self : OperationsBase} :
    Uses self (ResizeBilinear.createNode self) (resizeUses self) :=
  uses_resizeNode fun _ _ => uses_resizeSizes

theorem ResizeNearestNeighbor.createNode_uses {self : OperationsBase} :
    Uses self (ResizeNearestNeighbor.createNode self) (resizeUses self) :=
  uses_resizeNode fun _ _ => Follows.bind_quiet uses_resizeSizes fun _ => quiet_pure _

/-! ## Regions of interest -/

/-- A `float` that is not a number, by its bits. -/
def float32IsNan (bits : Int) : Bool := bits % 2 ^ 31 > 0x7F800000

/-- `a != b` on `float`: an undefined number differs from every number, and
the two zeros are equal. -/
def float32Ne (a b : Int) : Bool :=
  float32IsNan a || float32IsNan b ||
    (a != b && !(a % 2 ^ 31 == 0 && b % 2 ^ 31 == 0))

/-- The two ratios, of which the classes take only equal ones. -/
def OperationsBase.equalRatios (self : OperationsBase) : Gen Bool := do
  let heightRatio ← self.parseOperationInput .float32 5
  let widthRatio ← self.parseOperationInput .float32 6
  pure (!float32Ne heightRatio widthRatio)

def ROIAlign.validate (self : OperationsBase) : Gen Bool :=
  if ¬ self.checkOutputOperandType 0 .tensorFloat32 then pure false
  else if self.isZeroSizedInput 0 ∨ self.isZeroSizedInput 1 ∨ self.isZeroSizedInput 2 then
    pure false
  else if ¬ self.checkInputOperandType 0 .tensorFloat32 then pure false
  else if ¬ self.checkInputOperandType 1 .tensorFloat32 then pure false
  else self.equalRatios

/-- `ROI_ALIGN`: the regions, their batch and one ratio for both axes. -/
def ROIAlign.createNode (self : OperationsBase) : Gen Node := do
  let featMaps ← self.getInputNode 0
  let rois ← self.getInputNode 1
  let batchIndices ← self.getInputNode 2
  let outputHeight ← self.parseOperationInput .int32 3
  let outputWidth ← self.parseOperationInput .int32 4
  let heightRatio ← self.parseOperationInput .float32 5
  let samplingPtsH ← self.parseOperationInput .int32 7
  let layout ← self.parseOperationInput .uint8 9
  let featMaps ← transposeUnless (layout ≠ 0) .nhwcNchw featMaps
  let spatialScale := Scalar.toFloat (.div (.decimal 1 0) (CType.float32.scalar heightRatio))
  let outputNode ← makeShared
    (.roiAlign outputHeight outputWidth samplingPtsH spatialScale)
    [featMaps, rois, batchIndices]
  transposeUnless (layout ≠ 0) .nchwNhwc outputNode

/-- The ratio of the width is read by `validate` alone. -/
def ROIAlign.uses : List Use :=
  [.node 0, .node 1, .node 2, .scalar .int32 3, .scalar .int32 4, .scalar .float32 5,
    .scalar .int32 7, .scalar .uint8 9]

theorem ROIAlign.createNode_uses {self : OperationsBase} :
    Uses self (ROIAlign.createNode self) ROIAlign.uses := by
  refine .node fun _ => .node fun _ => .node fun _ => .scalar fun _ => .scalar fun _ => ?_
  refine .scalar fun _ => .scalar fun _ => .scalar fun _ => ?_
  exact .step quiet_transposeUnless fun _ => .make fun _ => .quiet quiet_transposeUnless

def ROIPooling.validate (self : OperationsBase) : Gen Bool :=
  if ¬ self.checkOutputOperandType 0 .tensorFloat32 then pure false
  else if ¬ self.checkInputOperandType 0 .tensorFloat32 then pure false
  else if ¬ self.checkInputOperandType 1 .tensorFloat32 then pure false
  else self.equalRatios

/-- `ROIPooling::createNode`.  The batch indices are read as a constant, and
the regions are taken from the node table whatever their lifetime is. -/
def ROIPooling.createNode (self : OperationsBase) : Gen Node := do
  let featMaps ← self.getInputNode 0
  let outputHeight ← self.parseOperationInput .int32 3
  let outputWidth ← self.parseOperationInput .int32 4
  let heightRatio ← self.parseOperationInput .float32 5
  let layout ← self.parseOperationInput .uint8 7
  let featMaps ← transposeUnless (layout ≠ 0) .nhwcNchw featMaps
  let spatialScale := Scalar.toFloat (.div (.decimal 1 0) (CType.float32.scalar heightRatio))
  let biVec ← self.getConstVecInput .int32 2
  let biNode ← createConstNode .f32 [biVec.length, 1] (biVec.map .int)
  let inputOp ← issue (.getOperationOutput (self.inputIndex 1))
  let roiNode ← makeShared (.concat 1) [(biNode, 0), inputOp]
  let outputNode ← makeShared
    (.roiPooling [toSizeT outputHeight, toSizeT outputWidth] spatialScale)
    [featMaps, roiNode]
  transposeUnless (layout ≠ 0) .nchwNhwc outputNode

/-- The batch of the regions is a vector, the regions are an entry. -/
def ROIPooling.uses : List Use :=
  [.node 0, .scalar .int32 3, .scalar .int32 4, .scalar .float32 5, .scalar .uint8 7,
    .vector .int32 2, .rawOutput 1]

theorem ROIPooling.createNode_uses {self : OperationsBase} :
    Uses self (ROIPooling.createNode self) ROIPooling.uses := by
  refine .node fun _ => .scalar fun _ => .scalar fun _ => .scalar fun _ => .scalar fun _ => ?_
  refine .step quiet_transposeUnless fun _ => .vector fun _ => .const fun _ => ?_
  exact .rawOutput fun _ => .make fun _ => .make fun _ => .quiet quiet_transposeUnless

end NnHal
