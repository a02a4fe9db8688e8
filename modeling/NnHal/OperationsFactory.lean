import NnHal.Elementwise
import NnHal.Reductions
import NnHal.Pooling
import NnHal.Resampling
import NnHal.LSTM

/-!
# The operation classes

`OperationsFactory::getOperation` chooses a class by the operation's type.  A
class is what its virtual methods do, together with the list of the uses its
`connectOperationToGraph` makes of the operands and the proof that it makes
them: a class cannot be registered without.
-/

namespace NnHal

open Command

/-- The virtual methods of a class derived from `OperationsBase`.  The plugin
has no validation of its own, so `validateForPlugin` is `validate`. -/
structure OperationClass where
  validate : OperationsBase → Gen Bool
  connectOperationToGraph : OperationsBase → Gen Unit
  uses : OperationsBase → List Use
  follows : ∀ self, Uses self (connectOperationToGraph self) (uses self)

namespace OperationClass

/-- `OperationsBase::validate`. -/
def accept (_ : OperationsBase) : Gen Bool := pure true

/-- A class that keeps the default `connectOperationToGraph`. -/
def ofNode (createNodeForPlugin : OperationsBase → Gen Node) {us : OperationsBase → List Use}
    (h : ∀ self, Uses self (createNodeForPlugin self) (us self))
    (validate : OperationsBase → Gen Bool := accept) : OperationClass where
  validate
  connectOperationToGraph := fun self => self.connectDefault (createNodeForPlugin self)
  uses := fun self => us self ++ [.set self.mDefaultOutputIndex]
  follows := fun self => uses_connectDefault (h self)

/-- A class whose `createNode` binds its outputs itself. -/
def ofOutputs (createNode : OperationsBase → Gen Unit) {us : OperationsBase → List Use}
    (h : ∀ self, Uses self (createNode self) (us self))
    (validate : OperationsBase → Gen Bool := accept) : OperationClass where
  validate
  connectOperationToGraph := createNode
  uses := us
  follows := h

end OperationClass

open OperationClass in
/-- `OperationsFactory::getOperation`; `none` is the null pointer. -/
def OperationsFactory.getOperation : OperationType → Option OperationClass
  | .abs => some (ofNode Abs.createNode fun _ => uses_unaryNode)
  | .add => some (ofNode Add.createNodeForPlugin (fun _ => Add.createNodeForPlugin_uses)
      Add.validate)
  | .argmax => some (ofNode Argmax.createNode fun _ => uses_argNode)
  | .argmin => some (ofNode Argmin.createNode fun _ => uses_argNode)
  | .averagePool2d => some (ofNode AveragePool2D.createNode
      (fun _ => AveragePool2D.createNode_uses) AveragePool2D.validate)
  | .batchToSpaceNd => some (ofNode BatchToSpace.createNode
      (fun _ => BatchToSpace.createNode_uses) BatchToSpace.validate)
  | .bidirectionalSequenceRnn => some (ofOutputs BidirectionalSequenceRNN.createNode
      fun _ => BidirectionalSequenceRNN.createNode_uses)
  | .cast => some (ofOutputs Cast.createNode fun _ => Cast.createNode_uses)
  | .channelShuffle => some (ofNode ChannelShuffle.createNode
      (fun _ => ChannelShuffle.createNode_uses) ChannelShuffle.validate)
  | .concatenation => some (ofNode Concat.createNode (fun _ => Concat.createNode_uses)
      Concat.validate)
  | .conv2d => some (ofNode Conv2d.createNode (fun _ => uses_convNode) Conv2d.validate)
  | .depthToSpace => some (ofNode DepthToSpace.createNode fun _ => uses_blockNode)
  | .depthwiseConv2d => some (ofNode DepthwiseConv2d.createNode (fun _ => uses_convNode)
      DepthwiseConv2d.validate)
  | .dequantize => some (ofNode Dequantize.createNode fun _ => Dequantize.createNode_uses)
  | .div => some (ofNode Div.createNode fun _ => uses_activatedNode)
  | .embeddingLookup => some (ofNode EmbeddingLookup.createNode
      (fun _ => EmbeddingLookup.createNode_uses) EmbeddingLookup.validate)
  | .equal => some (ofNode Equal.createNode fun _ => uses_binaryNode)
  | .exp => some (ofNode Exp.createNode fun _ => uses_unaryNode)
  | .expandDims => some (ofNode ExpandDims.createNode (fun _ => ExpandDims.createNode_uses)
      ExpandDims.validate)
  | .fullyConnected => some (ofNode FullyConnected.createNode
      (fun _ => FullyConnected.createNode_uses) FullyConnected.validate)
  | .floor => some (ofNode Floor.createNode fun _ => uses_unaryNode)
  | .gather => some (ofNode Gather.createNode fun _ => Gather.createNode_uses)
  | .greater => some (ofNode Greater.createNode fun _ => uses_binaryNode)
  | .greaterEqual => some (ofNode GreaterEqual.createNode fun _ => uses_binaryNode)
  | .groupedConv2d => some (ofNode GroupedConv2d.createNode (fun _ => uses_convNode)
      GroupedConv2d.validate)
  | .hardSwish => some (ofNode HardSwish.createNode fun _ => uses_unaryNode)
  | .instanceNormalization => some (ofNode InstanceNormalization.createNode
      (fun _ => InstanceNormalization.createNode_uses) InstanceNormalization.validate)
  | .l2Pool2d => some (ofNode L2Pooling2D.createNode fun _ => L2Pooling2D.createNode_uses)
  | .l2Normalization => some (ofNode L2Normalization.createNode
      (fun _ => L2Normalization.createNode_uses) L2Normalization.validate)
  | .lstm => some (ofOutputs LSTM.createNode (fun _ => LSTM.createNode_uses) LSTM.validate)
  | .less => some (ofNode Less.createNode fun _ => uses_binaryNode)
  | .lessEqual => some (ofNode LessEqual.createNode fun _ => uses_binaryNode)
  | .logSoftmax => some (ofNode LogSoftmax.createNode fun _ => LogSoftmax.createNode_uses)
  | .log => some (ofNode Log.createNode fun _ => uses_unaryNode)
  | .logicalAnd => some (ofNode LogicalAnd.createNode fun _ => uses_binaryNode)
  | .logicalNot => some (ofNode LogicalNot.createNode fun _ => uses_unaryNode)
  | .logicalOr => some (ofNode LogicalOr.createNode fun _ => uses_binaryNode)
  | .logistic => some (ofNode Logistic.createNode fun _ => uses_unaryNode)
  | .maximum => some (ofNode Maximum.createNode fun _ => uses_binaryNode)
  | .maxPool2d => some (ofNode MaxPool2d.createNode fun _ => MaxPool2d.createNode_uses)
  | .mean => some (ofNode Mean.createNode (fun _ => Mean.createNode_uses) Mean.validate)
  | .minimum => some (ofNode Minimum.createNode fun _ => uses_binaryNode)
  | .mul => some (ofNode Mul.createNode fun _ => uses_activatedNode)
  | .neg => some (ofNode Neg.createNode fun _ => uses_unaryNode)
  | .notEqual => some (ofNode NotEqual.createNode fun _ => uses_binaryNode)
  | .pad => some (ofNode Pad.createNode (fun _ => Pad.createNode_uses) Pad.validate)
  | .padV2 => some (ofNode PadV2.createNode (fun _ => PadV2.createNode_uses) PadV2.validate)
  | .pow => some (ofNode Pow.createNode fun _ => uses_binaryNode)
  | .prelu => some (ofNode PRelu.createNode (fun _ => uses_binaryNode) PRelu.validate)
  | .quantize => some (ofOutputs Quantize.createNode fun _ => Quantize.createNode_uses)
  | .reduceAll => some (ofNode ReduceAll.createNode fun _ => uses_reduceNode)
  | .reduceAny => some (ofNode ReduceAny.createNode fun _ => uses_reduceNode)
  | .reduceMax => some (ofNode ReduceMax.createNode fun _ => uses_reduceNode)
  | .reduceMin => some (ofNode ReduceMin.createNode fun _ => uses_reduceNode)
  | .reduceProd => some (ofNode ReduceProd.createNode fun _ => uses_reduceNode)
  | .reduceSum => some (ofNode ReduceSum.createNode fun _ => uses_reduceNode)
  | .relu => some (ofNode Relu.createNode fun _ => uses_unaryNode)
  | .relu1 => some (ofNode Relu1.createNode fun _ => uses_unaryNode)
  | .relu6 => some (ofNode Relu6.createNode fun _ => uses_unaryNode)
  | .reshape => some (ofNode Reshape.createNode (fun _ => Reshape.createNode_uses)
      Reshape.validate)
  | .rnn => some (ofOutputs RNN.createNode fun _ => RNN.createNode_uses)
  | .roiAlign => some (ofNode ROIAlign.createNode (fun _ => ROIAlign.createNode_uses)
      ROIAlign.validate)
  | .roiPooling => some (ofNode ROIPooling.createNode (fun _ => ROIPooling.createNode_uses)
      ROIPooling.validate)
  | .rsqrt => some (ofNode RSQRT.createNode fun _ => RSQRT.createNode_uses)
  | .resizeBilinear => some (ofNode ResizeBilinear.createNode
      (fun _ => ResizeBilinear.createNode_uses) ResizeBilinear.validate)
  | .resizeNearestNeighbor => some (ofNode ResizeNearestNeighbor.createNode
      (fun _ => ResizeNearestNeighbor.createNode_uses) ResizeNearestNeighbor.validate)
  | .select => some (ofNode Select.createNode fun _ => Select.createNode_uses)
  | .softmax => some (ofNode Softmax.createNode fun _ => Softmax.createNode_uses)
  | .spaceToBatchNd => some (ofNode SpaceToBatch.createNode
      (fun _ => SpaceToBatch.createNode_uses) SpaceToBatch.validate)
  | .spaceToDepth => some (ofNode SpaceToDepth.createNode fun _ => uses_blockNode)
  | .sqrt => some (ofNode SQRT.createNode fun _ => uses_unaryNode)
  | .sin => some (ofNode Sin.createNode fun _ => uses_unaryNode)
  | .split => some (ofOutputs Split.createNode fun _ => Split.createNode_uses)
  | .stridedSlice => some (ofNode StridedSlice.createNode
      (fun _ => StridedSlice.createNode_uses) StridedSlice.validate)
  | .squeeze => some (ofNode Squeeze.createNode (fun _ => Squeeze.createNode_uses)
      Squeeze.validate)
  | .sub => some (ofNode Sub.createNode fun _ => uses_activatedNode)
  | .tanh => some (ofNode Tanh.createNode fun _ => uses_unaryNode)
  | .topkV2 => some (ofOutputs TopkV2.createNode fun _ => TopkV2.createNode_uses)
  | .transposeConv2d => some (ofNode TransposeConv2D.createNode
      (fun _ => TransposeConv2D.createNode_uses) TransposeConv2D.validate)
  | .transpose => some (ofNode Transpose.createNode (fun _ => Transpose.createNode_uses)
      Transpose.validate)
  | .unidirectionalSequenceRnn => some (ofOutputs UnidirectionalSequenceRNN.createNode
      fun _ => UnidirectionalSequenceRNN.createNode_uses)
  | .other _ => none

end NnHal
