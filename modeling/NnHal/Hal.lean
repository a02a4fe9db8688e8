import Mathlib.Algebra.Group.Int.Defs
import Mathlib.Algebra.Group.Nat.Defs
import Mathlib.Data.List.Basic

/-!
# The neural-network HAL's model

The data a client sends to `prepareModel`: operands with their type,
dimensions and lifetime, operations with the operands they read and write,
and the bytes of the constants.  Only what the driver's code reads is kept:
operand and operation names, performance data and extension prefixes are left
out.

A vector of the HAL is a list.  An access that `validateModel` has bounded
(an operand index of an operation, an input position of its signature) reads
a default value past the end; an access nothing bounds is a fault of the
program that makes it and is modelled where it occurs.
-/

namespace NnHal

/-- `V1_3::OperandType`, with the extension types collected in `oem`. -/
inductive OperandType
  | float32 | int32 | uint32
  | tensorFloat32 | tensorInt32 | tensorQuant8Asymm
  | bool | tensorQuant16Symm | tensorFloat16 | tensorBool8
  | float16 | tensorQuant8SymmPerChannel | tensorQuant16Asymm
  | tensorQuant8Symm | tensorQuant8AsymmSigned | subgraph
  | oem
  deriving DecidableEq, Repr, Inhabited

/-- `V1_3::OperandLifeTime`. -/
inductive OperandLifeTime
  | temporaryVariable | subgraphInput | subgraphOutput
  | constantCopy | constantReference | noValue | subgraph
  deriving DecidableEq, Repr, Inhabited

/-- `V1_3::OperationType`: the operations `OperationsFactory` has a class
for, and every other code. -/
inductive OperationType
  | abs | add | argmax | argmin | averagePool2d | batchToSpaceNd
  | bidirectionalSequenceRnn | cast | channelShuffle | concatenation | conv2d
  | depthToSpace | depthwiseConv2d | dequantize | div | embeddingLookup
  | equal | exp | expandDims | fullyConnected | floor | gather | greater
  | greaterEqual | groupedConv2d | hardSwish | instanceNormalization
  | l2Pool2d | l2Normalization | lstm | less | lessEqual | logSoftmax | log
  | logicalAnd | logicalNot | logicalOr | logistic | maximum | maxPool2d
  | mean | minimum | mul | neg | notEqual | pad | padV2 | pow | prelu
  | quantize | reduceAll | reduceAny | reduceMax | reduceMin | reduceProd
  | reduceSum | relu | relu1 | relu6 | reshape | rnn | roiAlign | roiPooling
  | rsqrt | resizeBilinear | resizeNearestNeighbor | select | softmax
  | spaceToBatchNd | spaceToDepth | sqrt | sin | split | stridedSlice
  | squeeze | sub | tanh | topkV2 | transposeConv2d | transpose
  | unidirectionalSequenceRnn
  | other (code : Nat)
  deriving DecidableEq, Repr, Inhabited

/-- `V1_0::DataLocation`. -/
structure DataLocation where
  poolIndex : Nat := 0
  offset : Nat := 0
  length : Nat := 0
  deriving DecidableEq, Repr, Inhabited

/-- `SymmPerChannelQuantParams`; a scale is kept as the bits of the float. -/
structure SymmPerChannelQuantParams where
  scales : List Nat
  channelDim : Nat
  deriving DecidableEq, Repr, Inhabited

/-- `V1_3::Operand`.  `channelQuant` is the `extraParams` union: `none` when
it holds another member. -/
structure Operand where
  type : OperandType
  dimensions : List Nat := []
  scale : Nat := 0
  zeroPoint : Int := 0
  lifetime : OperandLifeTime
  location : DataLocation := {}
  channelQuant : Option SymmPerChannelQuantParams := none
  numberOfConsumers : Nat := 0
  deriving DecidableEq, Repr, Inhabited

/-- `V1_3::Operation`. -/
structure Operation where
  type : OperationType
  inputs : List Nat
  outputs : List Nat
  deriving DecidableEq, Repr, Inhabited

/-- `V1_3::Model`, with `main` flattened.  A pool is named by the memory
object the client sends. -/
structure Model where
  operands : List Operand
  operations : List Operation
  inputIndexes : List Nat
  outputIndexes : List Nat
  operandValues : List UInt8 := []
  pools : List Nat := []
  deriving DecidableEq, Repr, Inhabited

/-- `IntelDeviceType`. -/
inductive IntelDeviceType
  | cpu | gpu | gna | vpu | other
  deriving DecidableEq, Repr, Inhabited

/-- `ErrorStatus` of the HAL 1.3, of which the older versions have a part. -/
inductive ErrorStatus
  | none | deviceUnavailable | generalFailure | outputInsufficientSize | invalidArgument
  | missedDeadlineTransient | missedDeadlinePersistent
  | resourceExhaustedTransient | resourceExhaustedPersistent
  deriving DecidableEq, Repr, Inhabited

/-! ## Well-formed models

The framework's `validateModel` stands in front of every entry point of the
driver.  It is not part of the repository; what the driver relies on is stated
here. -/

/-- The operand at an index. -/
def Model.operand (model : Model) (index : Nat) : Operand :=
  model.operands.getD index { type := .oem, lifetime := .noValue }

/-- The operation's operands exist, and it writes temporaries and model outputs
only. -/
def Operation.WellFormed (model : Model) (operation : Operation) : Prop :=
  (∀ i ∈ operation.inputs, i < model.operands.length) ∧
    ∀ i ∈ operation.outputs, i < model.operands.length ∧
      (model.operand i).lifetime ∈ [OperandLifeTime.temporaryVariable, .subgraphOutput]

/-- A constant lies within the data it is taken from, and no operand is a
subgraph, which the driver has no operation for. -/
def Operand.WellFormed (model : Model) (operand : Operand) : Prop :=
  (operand.lifetime = .constantCopy → operand.location.poolIndex = 0 ∧
      operand.location.offset + operand.location.length ≤ model.operandValues.length) ∧
    (operand.lifetime = .constantReference → operand.location.poolIndex < model.pools.length) ∧
      operand.lifetime ≠ .subgraph

/-- Besides, the model's inputs and outputs are those operands that say so, and
no operand is written twice. -/
def Model.WellFormed (model : Model) : Prop :=
  (∀ operation ∈ model.operations, operation.WellFormed model) ∧
    (∀ operand ∈ model.operands, operand.WellFormed model) ∧
    (∀ i ∈ model.inputIndexes, (model.operand i).lifetime = .subgraphInput) ∧
    (∀ i ∈ model.outputIndexes, (model.operand i).lifetime = .subgraphOutput) ∧
    (model.operations.flatMap (·.outputs)).Nodup

instance (model : Model) (operation : Operation) : Decidable (operation.WellFormed model) :=
  inferInstanceAs (Decidable (_ ∧ _))

instance (model : Model) (operand : Operand) : Decidable (operand.WellFormed model) :=
  inferInstanceAs (Decidable (_ ∧ _))

instance (model : Model) : Decidable model.WellFormed :=
  inferInstanceAs (Decidable (_ ∧ _))

/-- Every temporary or model output an operation reads is written by an earlier
one. -/
def Model.orderedFrom (model : Model) (written : List Nat) : List Operation → Bool
  | [] => true
  | operation :: operations =>
      operation.inputs.all (fun i =>
        (model.operand i).lifetime ∉ [OperandLifeTime.temporaryVariable, .subgraphOutput] ||
          i ∈ written) &&
        model.orderedFrom (written ++ operation.outputs) operations

/-- The operations are in execution order. -/
def Model.InExecutionOrder (model : Model) : Prop := model.orderedFrom [] model.operations = true

instance (model : Model) : Decidable model.InExecutionOrder :=
  inferInstanceAs (Decidable (_ = _))

/-! ## Machine integers -/

/-- Conversion to `int32_t`. -/
def toInt32 (n : Int) : Int := n.bmod (2 ^ 32)

/-- Conversion to `size_t`. -/
def toSizeT (n : Int) : Nat := (n % 2 ^ 64).toNat

/-- Bytes of one element, as the switch of `sizeOfData` has it: the types the
switch leaves out have none. -/
def OperandType.elementSize : OperandType → Nat
  | float32 | tensorFloat32 | tensorInt32 | int32 => 4
  | tensorQuant8Asymm | tensorQuant8Symm | tensorQuant8SymmPerChannel
  | tensorQuant8AsymmSigned | tensorBool8 => 1
  | tensorFloat16 | tensorQuant16Symm | tensorQuant16Asymm | float16 => 2
  | uint32 | bool | subgraph | oem => 0

/-- `sizeOfData`, stored by its callers in a `uint32_t`. -/
def sizeOfData (type : OperandType) (dims : List Nat) : Nat :=
  dims.foldl (fun size d => size * d % 2 ^ 32) type.elementSize

/-- `getNumberOfElements`. -/
def getNumberOfElements (dims : List Nat) : Nat :=
  dims.foldl (fun count d => count * d % 2 ^ 32) 1

/-- A lifetime whose operand carries its value in the model. -/
def OperandLifeTime.isConst : OperandLifeTime → Bool
  | constantCopy | constantReference => true
  | _ => false

@[simp]
theorem OperandLifeTime.isConst_iff {l : OperandLifeTime} :
    l.isConst = true ↔ l = constantCopy ∨ l = constantReference := by
  cases l <;> simp [isConst]

end NnHal
