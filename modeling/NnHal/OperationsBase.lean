import NnHal.ModelInfo

/-!
# The base class of the operations

`OperationsBase` carries what an operation reads when one of its methods runs:
its own index and default output, and the static members `sModelInfo` and
`sPluginType` as they are at that moment.  The helpers below are those the
operation classes share.
-/

namespace NnHal

open Command

/-- An operation as its methods see it. -/
structure OperationsBase where
  sModelInfo : NnapiModelInfo
  sPluginType : IntelDeviceType
  mNnapiOperationIndex : Nat
  mDefaultOutputIndex : Nat

/-- `OperationsBase::ConversionType`. -/
inductive ConversionType
  | nhwcNchw | nchwNhwc | ihwoOihw | ohwiOihw | nhwcCwhn | cwhnNhwc | nhcNch
  | nchNhc | cnhNhc | nchHnc | hncNch | nhcCnh | btsTbs | nhcwNhwc | ncCn
  deriving DecidableEq, Repr

/-- The axis order of a conversion; two of them have no case in the switch
and leave the order empty. -/
def ConversionType.order : ConversionType → List Int
  | nhwcNchw => [0, 3, 1, 2]
  | nchwNhwc => [0, 2, 3, 1]
  | ihwoOihw => [3, 0, 1, 2]
  | ohwiOihw => [0, 3, 1, 2]
  | nhwcCwhn => [3, 2, 1, 0]
  | cwhnNhwc => [3, 2, 1, 0]
  | nhcNch => [0, 2, 1]
  | nchNhc => [0, 1, 2]
  | cnhNhc => [1, 2, 0]
  | nhcCnh => [2, 0, 1]
  | btsTbs => [1, 0, 2]
  | nhcwNhwc => [0, 1, 3, 2]
  | ncCn => [1, 0]
  | nchHnc | hncNch => []

/-- `OperationsBase::transpose`. -/
def transpose (type : ConversionType) (input : Output) : Gen Node := do
  let orderNode ← makeShared (.constant .i64 [type.order.length] (type.order.map .int)) []
  makeShared .transpose [input, orderNode]

/-- `applyActivation` of `NgraphHelper.hpp`. -/
def applyActivation (inputNode : Node) (activationFn : Int) : Gen Node :=
  if activationFn = 0 then pure inputNode
  else if activationFn = 1 then makeShared .relu [inputNode]
  else if activationFn = 2 then makeShared (.clamp (.int (-1)) (.int 1)) [inputNode]
  else if activationFn = 3 then makeShared (.clamp (.int 0) (.int 6)) [inputNode]
  else pure inputNode

/-- `calculateExplicitPadding`: the head and the tail padding. -/
def calculateExplicitPadding (inSize stride filterSize paddingImplicit : Int) :
    Gen (Int × Int) :=
  if paddingImplicit = 1 then do
    let outSize ← divInt (inSize + stride - 1) stride
    let tmp := (outSize - 1) * stride + filterSize
    if tmp > inSize then do
      let head := (tmp - inSize).tdiv 2
      pure (head, tmp - inSize - head)
    else pure (0, 0)
  else pure (0, 0)

namespace OperationsBase

variable (self : OperationsBase)

/-- The operand at an input position. -/
def inputIndex (index : Nat) : Nat :=
  self.sModelInfo.getOperationInput self.mNnapiOperationIndex index

/-- The operand at an output position. -/
def outputIndex (index : Nat) : Nat :=
  self.sModelInfo.getOperationOutput self.mNnapiOperationIndex index

def inputsSize : Nat :=
  self.sModelInfo.getOperationInputsSize self.mNnapiOperationIndex

def outputsSize : Nat :=
  self.sModelInfo.getOperationOutputsSize self.mNnapiOperationIndex

def getInputOperand (index : Nat) : Operand :=
  self.sModelInfo.getOperand (self.inputIndex index)

def getOutputOperand (index : Nat) : Operand :=
  self.sModelInfo.getOperand (self.outputIndex index)

def checkOutputOperandType (index : Nat) (expected : OperandType) : Bool :=
  (self.getOutputOperand index).type = expected

def checkInputOperandType (index : Nat) (expected : OperandType) : Bool :=
  (self.getInputOperand index).type = expected

def getInputOperandDimensions (inputIndex : Nat) : List Nat :=
  (self.getInputOperand inputIndex).dimensions

def isOmittedInput (index : Nat) : Bool :=
  self.sModelInfo.isOmittedInput self.mNnapiOperationIndex index

def isInputConst (index : Nat) : Bool :=
  self.sModelInfo.isOperandLifeTimeConst (self.inputIndex index)

/-- `isValidInputTensor`: the product of the dimensions is taken in
`size_t`. -/
def isValidInputTensor (inputIndex : Nat) : Bool :=
  let dims := self.getInputOperandDimensions inputIndex
  !dims.isEmpty && dims.foldl (fun size d => size * d % 2 ^ 64) 1 != 0

def isZeroSizedInput (index : Nat) : Bool :=
  match self.getInputOperandDimensions index with
  | [] => true
  | d :: _ => d = 0

/-- `ParseOperationInput<T>`. -/
def parseOperationInput (T : CType) (index : Nat) : Gen Int :=
  self.sModelInfo.parseOperationInput T self.mNnapiOperationIndex index

/-- The constant vector at an input position. -/
def getConstVecInput (T : CType) (index : Nat) : Gen (List Int) :=
  self.sModelInfo.getConstVecOperand T (self.inputIndex index)

/-- `operand.extraParams.channelQuant()`. -/
def channelQuant (operand : Operand) : Gen SymmPerChannelQuantParams :=
  match operand.channelQuant with
  | some params => pure params
  | none => do
      let never ← issue .abort
      nomatch never

/-- `QuantizeNode`. -/
def quantizeNode (input : Node) (index : Nat) (quantizeType : ElementType) :
    Gen Node := do
  let scale ← createConstNode .f32 [] [self.sModelInfo.getOperandScale index]
  let zeroPoint ← createConstNode .i32 [] [self.sModelInfo.getOperandZeroPoint index]
  let inputType ← issue (.getElementType input)
  let input ← (if inputType ≠ .f32 then makeShared (.convert .f32) [input] else pure input)
  let div ← makeShared .divide [input, scale]
  let round ← makeShared .roundHalfToEven [div]
  let convertRound ← makeShared (.convert .i32) [round]
  let sum ← makeShared .add [convertRound, zeroPoint]
  let data ← (match self.sModelInfo.getOperandType index with
    | .tensorQuant8Asymm => makeShared (.clamp (.int 0) (.int 255)) [sum]
    | .tensorQuant8Symm | .tensorQuant8AsymmSigned =>
        makeShared (.clamp (.int (-128)) (.int 127)) [sum]
    | .tensorQuant16Symm => makeShared (.clamp (.int (-32768)) (.int 32767)) [sum]
    | .tensorQuant16Asymm => makeShared (.clamp (.int 0) (.int 65535)) [sum]
    | _ => deref none)
  let dataType ← issue (.getElementType data)
  if dataType ≠ quantizeType then makeShared (.convert quantizeType) [data]
  else pure data

/-- The scales of a per-channel operand as a node.  The vector `shape` has
`inputRank - channelDim` entries, an unsigned difference: below zero the
allocation throws, at zero its first entry is past the end. -/
def channelScaleNode (operand : Operand) : Gen Node := do
  let params ← channelQuant operand
  let inputRank := (self.getInputOperandDimensions 0).length
  if inputRank < params.channelDim then do
    let never ← issue .throwException
    nomatch never
  else do
    faultIf (inputRank = params.channelDim) .dimension
    let shape := (List.replicate (inputRank - params.channelDim) 1).set 0 params.scales.length
    createConstNode .f32 shape (params.scales.map .float32)

/-- `DequantizeNode`. -/
def dequantizeNode (input : Node) (index : Nat) (dequantizeType : ElementType) :
    Gen Node := do
  let operand := self.sModelInfo.getOperand index
  let inputType ← issue (.getElementType input)
  let input ← (if inputType ≠ .f32 then makeShared (.convert .f32) [input] else pure input)
  let outputNode ←
    (if operand.type = .tensorQuant8SymmPerChannel then do
      let scaleNode ← self.channelScaleNode operand
      makeShared .multiply [input, scaleNode]
    else do
      let scaleNode ← createConstNode .f32 [] [self.sModelInfo.getOperandScale index]
      let zeroPointNode ←
        createConstNode .f32 [] [.toFloat (self.sModelInfo.getOperandZeroPoint index)]
      let input ←
        (if operand.type = .tensorQuant8Asymm ∨ operand.type = .tensorQuant16Asymm ∨
            operand.type = .tensorQuant8AsymmSigned then
          makeShared .subtract [input, zeroPointNode]
        else pure input)
      makeShared .multiply [input, scaleNode])
  if dequantizeType = .f16 then makeShared (.convert dequantizeType) [outputNode]
  else pure outputNode

end OperationsBase

/-- The element type and the C++ type with which `getInputNode` reads a
constant tensor; the switch has no case for the remaining types. -/
def OperandType.constElement : OperandType → Option (ElementType × CType)
  | tensorFloat32 => some (.f32, .float32)
  | tensorInt32 => some (.i32, .int32)
  | tensorBool8 => some (.boolean, .uint8)
  | tensorQuant8Asymm => some (.u8, .uint8)
  | tensorQuant8Symm | tensorQuant8SymmPerChannel | tensorQuant8AsymmSigned =>
      some (.i8, .int8)
  | tensorFloat16 => some (.f16, .float16)
  | tensorQuant16Symm => some (.i16, .int16)
  | tensorQuant16Asymm => some (.u16, .uint16)
  | float32 | int32 | uint32 | bool | float16 | subgraph | oem => none

/-- The types `getInputNode` dequantizes. -/
def OperandType.isQuantized : OperandType → Bool
  | tensorQuant8Asymm | tensorQuant8SymmPerChannel | tensorQuant8AsymmSigned
  | tensorQuant8Symm | tensorQuant16Symm | tensorQuant16Asymm => true
  | _ => false

namespace OperationsBase

variable (self : OperationsBase)

/-- `getInputNode`: a constant becomes a node of its own, any other operand is
looked up in the node table.  A constant of a type the switch leaves out gives
the null pointer, as does an unbound entry. -/
def getInputNode (inputIndex : Nat) (dequantize : Bool := true) : Gen Node := do
  let operandIndex := self.inputIndex inputIndex
  let operandType := self.sModelInfo.getOperandType operandIndex
  if self.sModelInfo.isOperandLifeTimeConst operandIndex then
    match operandType.constElement with
    | none => do
        issue (.nullConstant operandIndex)
        pure default
    | some (elementType, T) => do
        let operandValues ← self.sModelInfo.getConstVecOperand T operandIndex
        let input ← createConstNode elementType (self.getInputOperandDimensions inputIndex)
          (operandValues.map T.scalar)
        if dequantize && operandType.isQuantized then
          self.dequantizeNode input operandIndex .f32
        else pure input
  else do
    let output ← issue (.getOperationOutput operandIndex)
    if dequantize && operandType.isQuantized then
      self.dequantizeNode output.1 operandIndex .f32
    else pure output.1

def removeInputNode (inputIndex : Nat) : Gen Unit :=
  issue (.removeInputNode (self.inputIndex inputIndex))

/-- Register a node as a result where its operand is a model output. -/
def addModelOutput (index : Nat) (node : NodePtr) : Gen Unit :=
  if (self.sModelInfo.getOperand index).lifetime = .subgraphOutput then
    issue (.setResultNode index node)
  else pure ()

/-- Bind an output of the operation and register it, as every class with
several outputs does. -/
def setOperationOutput (index : Nat) (outNode : NodePtr) : Gen Unit := do
  issue (.setOutputAtOperandIndex index (outNode.map (·, 0)))
  self.addModelOutput index outNode

/-- The same where the node is converted first, or missing because no branch
of the class assigns one. -/
def setConverted (index : Nat) (outNode : Option (Gen Node)) : Gen Unit :=
  match outNode with
  | some convert => do
      let node ← convert
      self.setOperationOutput index (some node)
  | none => self.setOperationOutput index none

/-- `OperationsBase::connectOperationToGraph`, for the classes that keep it:
the node is quantized to the type of the output operand, registered as a
result, and bound. -/
def connectDefault (createNodeForPlugin : Gen Node) : Gen Unit := do
  let outputNode ← createNodeForPlugin
  let index := self.mDefaultOutputIndex
  let outputNode ← (match self.sModelInfo.getOperandType index with
    | .tensorQuant8Asymm => self.quantizeNode outputNode index .u8
    | .tensorQuant8AsymmSigned | .tensorQuant8Symm =>
        self.quantizeNode outputNode index .i8
    | .tensorQuant16Asymm => self.quantizeNode outputNode index .u16
    | .tensorQuant16Symm => self.quantizeNode outputNode index .i16
    | _ => pure outputNode)
  self.addModelOutput index outputNode
  issue (.setOutputAtOperandIndex index (some outputNode))

end OperationsBase

end NnHal
