import NnHal.NgraphNetworkCreator
import NnHal.NnapiLayers

/-!
# What NNAPI's models compute

A model is a straight-line program over its operands: every operation is a step
that reads its inputs, which are constants of the model or values of earlier
steps, and writes its outputs as their operands store them.
-/

namespace NnHal

open Tensors StraightLine

/-- The result of an operation with one output. -/
noncomputable def Arguments.result (g : Arguments) : OperationType → Option (Tensor ℝ)
  | .abs => g.unary .abs
  | .add => g.activated .add
  | .averagePool2d => g.pooling average
  | .channelShuffle => g.channelShuffle
  | .concatenation => g.concatenation
  | .conv2d => g.conv2d
  | .depthToSpace => g.depthToSpace
  | .depthwiseConv2d => g.depthwiseConv2d
  | .dequantize => g.dequantize
  | .div => g.activated .div
  | .embeddingLookup => g.embeddingLookup
  | .equal => g.binary .equal
  | .exp => g.unary .exp
  | .expandDims => g.expandDims
  | .fullyConnected => g.fullyConnected
  | .floor => g.unary .floor
  | .gather => g.gather
  | .greater => g.binary .greater
  | .greaterEqual => g.binary .greaterEqual
  | .hardSwish => g.unary .hardSwish
  | .l2Normalization => g.l2Normalization
  | .l2Pool2d => g.pooling rootMeanSquare
  | .less => g.binary .less
  | .lessEqual => g.binary .lessEqual
  | .logSoftmax => g.logSoftmax
  | .log => g.unary .log
  | .logicalAnd => g.binary .logicalAnd
  | .logicalNot => g.unary .logicalNot
  | .logicalOr => g.binary .logicalOr
  | .logistic => g.unary .logistic
  | .maximum => g.binary .maximum
  | .maxPool2d => g.pooling largest
  | .mean => g.mean
  | .minimum => g.binary .minimum
  | .mul => g.activated .mul
  | .neg => g.unary .neg
  | .notEqual => g.binary .notEqual
  | .pad => g.pad
  | .padV2 => g.padV2
  | .pow => g.binary .pow
  | .reduceAll => g.reduced .all
  | .reduceAny => g.reduced .any
  | .reduceMax => g.reduced .max
  | .reduceMin => g.reduced .min
  | .reduceProd => g.reduced .prod
  | .reduceSum => g.reduced .sum
  | .relu => g.unary .relu
  | .relu1 => g.unary .relu1
  | .relu6 => g.unary .relu6
  | .reshape => g.reshape
  | .rsqrt => g.rsqrt
  | .select => g.select
  | .softmax => g.softmax
  | .spaceToDepth => g.spaceToDepth
  | .squeeze => g.squeeze
  | .sqrt => g.unary .sqrt
  | .sin => g.unary .sin
  | .sub => g.activated .sub
  | .tanh => g.unary .tanh
  | .transpose => g.transpose
  | _ => none

namespace NnapiModelInfo

variable (info : NnapiModelInfo)

/-- The only output, as its operand stores it. -/
noncomputable def single (operation : Operation) (y : Option (Tensor ℝ)) :
    Option (List (Tensor ℝ)) :=
  match operation.outputs with
  | [o] => (y.bind (info.getOperand o).store).map fun q => [q]
  | _ => none

open Classical in
/-- What an operation writes.  The parts of `SPLIT` are of the numbers as they are
stored, and `QUANTIZE` makes unsigned numbers. -/
noncomputable def written (operation : Operation) (g : Arguments) : Option (List (Tensor ℝ)) :=
  match operation.type with
  | .split => g.split operation.outputs.length
  | .quantize =>
      if ∀ o ∈ operation.outputs, info.getOperandType o = .tensorQuant8Asymm then
        info.single operation (g.tensor 0)
      else none
  | type => info.single operation (g.result type)

/-- An operation as a step. -/
noncomputable def step (operation : Operation) : Step (Tensor ℝ) where
  targets := operation.outputs
  compute env := info.written operation (info.arguments operation env)

/-- A tensor of the operand's shape, with entries of its type. -/
def Admits (i : Nat) (x : Tensor ℝ) : Prop :=
  x.shape = (info.getOperand i).dimensions ∧
    ∃ type, NgraphNetworkCreator.parameterType (info.getOperand i).type = some type ∧
      ∀ index, Inside x.shape index → type.Holds (x.get index)

open Classical in
/-- The values of the model inputs. -/
noncomputable def inputEnvironment (inputs : Nat → Tensor ℝ) : Environment (Tensor ℝ) := fun i =>
  if i ∈ info.getModelInputIndexes ∧ info.Admits i (inputs i) then some (inputs i) else none

/-- The values of the operands of a model. -/
noncomputable def evaluate (inputs : Nat → Tensor ℝ) : Option (Environment (Tensor ℝ)) :=
  run (info.mModel.operations.map info.step) (info.inputEnvironment inputs)

end NnapiModelInfo

end NnHal
