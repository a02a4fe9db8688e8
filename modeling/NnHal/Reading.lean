import NnHal.OperationsFactory
import NnHal.ReadingRuns
import NnHal.Threads

/-!
# What building a node leaves alone

A class that keeps the default `connectOperationToGraph` only builds: its
`createNode` looks the node table up and changes nothing in it.  The helpers the
classes share are closed under the ways a program is put together, so the
property is a class of programs and its instances follow the source.
-/

namespace NnHal

open Command

/-- The command leaves the node table as it is. -/
def Cmd.reads : Cmd → Prop
  | .setOutputAtOperandIndex _ _ | .setResultNode _ _ | .addInputParam _ | .setInvalidNode _
  | .removeInputNode _ => False
  | _ => True

/-- Every command of the program does. -/
abbrev Reading {α : Type} (p : Gen α) : Prop := Only Cmd.reads p

section

set_option synthInstance.maxSize 4096

variable {α : Type}

/-- Where an assertion fails the run ends, and the table stays. -/
instance reading_abort : Reading (issue .abort) := only_perform trivial

/-- An exception ends it too. -/
instance reading_throwException : Reading (issue .throwException) := only_perform trivial

/-- A read of a constant is of the model. -/
instance reading_readOperand (operand : Nat) : Reading (issue (.readOperand operand)) :=
  only_perform trivial

/-- Reading through a null buffer is recorded like any read. -/
instance reading_nullConstant (operand : Nat) : Reading (issue (.nullConstant operand)) :=
  only_perform trivial

/-- Looking an entry up is not writing it. -/
instance reading_getOperationOutput (index : Nat) :
    Reading (issue (.getOperationOutput index)) := only_perform trivial

/-- ngraph answers for the node's shape. -/
instance reading_getShape (node : Node) : Reading (issue (.getShape node)) :=
  only_perform trivial

/-- And for its element type. -/
instance reading_getElementType (node : Node) : Reading (issue (.getElementType node)) :=
  only_perform trivial

/-- An undefined step is recorded, and the table stays as it is. -/
instance reading_fault (f : Fault) : Reading (fault f) := only_perform trivial

/-- A new node is ngraph's until it is bound. -/
instance reading_makeShared (op : NodeOp) (args : List Output) :
    Reading (makeShared op args) := only_perform trivial

/-- So is a new constant. -/
instance reading_createConstNode (type : ElementType) (shape : List Nat) (vals : List Scalar) :
    Reading (createConstNode type shape vals) := only_perform trivial

/-- A check of the code's own operators. -/
instance reading_faultIf (b : Bool) (f : Fault) : Reading (faultIf b f) := by
  unfold faultIf
  infer_instance

/-- A null pointer that is followed. -/
instance reading_deref (node : NodePtr) : Reading (deref node) := by
  cases node <;> (unfold deref; infer_instance)

/-- A size past the end of an operand's dimensions is a fault. -/
instance reading_dimAt (dims : List Nat) (i : Nat) : Reading (dimAt dims i) := by
  unfold dimAt
  split <;> infer_instance

/-- The same for any vector. -/
instance reading_elementAt [Inhabited α] (v : List α) (i : Nat) : Reading (elementAt v i) := by
  unfold elementAt
  split <;> infer_instance

/-- The same for the shape of a node. -/
instance reading_shapeAt (node : Node) (i : Nat) : Reading (shapeAt node i) := by
  refine .bind inferInstance fun shape => ?_
  cases shape[i]? <;> infer_instance

/-- A division faults on zero. -/
instance reading_divInt (a b : Int) : Reading (divInt a b) := by
  unfold divInt
  infer_instance

/-- A local variable may not have been assigned. -/
instance reading_readLocal [Inhabited α] (x : Option α) : Reading (readLocal x) := by
  cases x <;> (unfold readLocal; infer_instance)

end

/-- The answer of ngraph to such a command leaves the table. -/
theorem Cmd.reads.answer_state {c : Cmd} (hc : c.reads) {ng : Ngraph} {nodes nodes' : NgraphNodes}
    {r : c.Answer} (h : answer ng c nodes = .ok (r, nodes')) : nodes' = nodes := by
  cases c with
  | make op args =>
      rw [answer] at h
      split at h
      · injection h with hpair
        exact (congrArg Prod.snd hpair).symm
      · cases h
  | setOutputAtOperandIndex _ _ | setResultNode _ _ | addInputParam _ | setInvalidNode _
      | removeInputNode _ => exact hc.elim
  | abort | throwException => cases h
  | _ =>
      injection h with hpair
      exact (congrArg Prod.snd hpair).symm

/-- What comes after the command is what was before. -/
theorem Cmd.reads.next_answer {c : Cmd} (hc : c.reads) {ng : Ngraph} {nodes : NgraphNodes} :
    next (answer ng) nodes c = nodes := by
  cases h : answer ng c nodes with
  | error e => exact next_error h
  | ok rs => exact (next_ok h).trans (hc.answer_state h)

/-- A reading program gives the table back as it was. -/
theorem Reading.returns {α : Type} {p : Gen α} (hp : Reading p) (ng : Ngraph)
    (nodes : NgraphNodes) : Returns (answer ng) nodes p fun _ => True := by
  have hstep : ∀ c : Cmd, c.reads → ∀ s r s', answer ng c s = .ok (r, s') →
      s = nodes → s' = nodes :=
    fun c hc s r s' hanswer hs => (hc.answer_state hanswer).trans hs
  intro a _
  exact ⟨hp.all.exec_preserves hstep rfl, trivial⟩

/-- What it returns is what a run of its own returns. -/
theorem Reading.returns_outcome {α : Type} {p : Gen α} (hp : Reading p) (ng : Ngraph)
    (nodes : NgraphNodes) :
    Returns (answer ng) nodes p fun a => (exec (answer ng) p nodes).outcome = .ok a := by
  intro a ha
  exact ⟨(hp.returns ng nodes a ha).1, ha⟩

/-- A reading program that is known to return. -/
theorem gives_outcome {α : Type} {p : Gen α} [hp : Reading p] {ng : Ngraph} {nodes : NgraphNodes}
    {a : α} (h : (exec (answer ng) p nodes).outcome = .ok a) :
    Gives (answer ng) nodes p (· = a) :=
  ⟨a, h, (hp.returns ng nodes a h).1, rfl⟩

/-- A reading step in front of a program. -/
theorem returns_step {α β : Type} {p : Gen α} [hp : Reading p] {ng : Ngraph} {nodes : NgraphNodes}
    {f : α → Gen β} {Q : β → Prop} (hf : ∀ a, Returns (answer ng) nodes (f a) Q) :
    Returns (answer ng) nodes (p >>= f) Q :=
  (hp.returns ng nodes).bind fun a _ => hf a

/-! ## The shared helpers -/

section

set_option synthInstance.maxSize 4096

variable {info : NnapiModelInfo} {self : OperationsBase}

/-- `nnAssert` goes on or ends the run. -/
instance reading_nnAssert (b : Bool) : Reading (nnAssert b) := by
  refine .ite inferInstance (.bind inferInstance fun never => ?_)
  exact nomatch never

/-- The type of an operation past the last one is a fault. -/
instance reading_getOperationType (index : Nat) : Reading (info.getOperationType index) := by
  unfold NnapiModelInfo.getOperationType
  split <;> infer_instance

/-- The bytes of an operand: the model's own, a pool's, or none. -/
instance reading_getOperandMemory (index : Nat) : Reading (info.getOperandMemory index) := by
  refine .bind inferInstance fun _ => ?_
  dsimp only
  cases (info.getOperand index).lifetime
  case constantReference =>
    dsimp only
    cases info.mPoolInfos[(info.getOperand index).location.poolIndex]? <;> infer_instance
  all_goals dsimp only; infer_instance

/-- A scalar of those bytes. -/
instance reading_getConstFromBuffer (T : CType) (index : Nat) (buf : Option (List UInt8))
    (len : Nat) : Reading (NnapiModelInfo.getConstFromBuffer T index buf len) := by
  cases buf <;> (unfold NnapiModelInfo.getConstFromBuffer; infer_instance)

/-- All of them, as numbers of one type. -/
instance reading_getConstVecFromBuffer (T : CType) (index : Nat) (buf : Option (List UInt8))
    (len : Nat) : Reading (NnapiModelInfo.getConstVecFromBuffer T index buf len) := by
  cases buf <;> (unfold NnapiModelInfo.getConstVecFromBuffer; infer_instance)

/-- A scalar of an operand, wherever its bytes are. -/
instance reading_getConstOperand (T : CType) (index : Nat) :
    Reading (info.getConstOperand T index) := by
  unfold NnapiModelInfo.getConstOperand
  infer_instance

/-- The numbers of an operand. -/
instance reading_getConstVecOperand (T : CType) (index : Nat) :
    Reading (info.getConstVecOperand T index) := by
  unfold NnapiModelInfo.getConstVecOperand
  infer_instance

/-- A scalar input of the operation. -/
instance reading_parseOperationInput (T : CType) (index : Nat) :
    Reading (self.parseOperationInput T index) := reading_getConstOperand T _

/-- A vector input of the operation. -/
instance reading_getConstVecInput (T : CType) (index : Nat) :
    Reading (self.getConstVecInput T index) := reading_getConstVecOperand T _

/-- A transposition is an order of axes and a node. -/
instance reading_transpose (type : ConversionType) (input : Output) :
    Reading (transpose type input) := by
  unfold transpose
  infer_instance

/-- It is left out where the layout is NCHW. -/
instance reading_transposeUnless (useNchw : Bool) (type : ConversionType) (node : Node) :
    Reading (transposeUnless useNchw type node) := by
  unfold transposeUnless
  infer_instance

/-- A fused activation adds at most one node. -/
instance reading_applyActivation (inputNode : Node) (activationFn : Int) :
    Reading (applyActivation inputNode activationFn) := by
  unfold applyActivation
  infer_instance

/-- Paddings are computed; only a stride of zero goes wrong. -/
instance reading_calculateExplicitPadding (inSize stride filterSize paddingImplicit : Int) :
    Reading (calculateExplicitPadding inSize stride filterSize paddingImplicit) := by
  unfold calculateExplicitPadding
  infer_instance

/-- The parameters of a channel come from the operand. -/
instance reading_channelQuant (operand : Operand) :
    Reading (OperationsBase.channelQuant operand) := by
  unfold OperationsBase.channelQuant
  cases operand.channelQuant with
  | none => exact .bind inferInstance fun never => nomatch never
  | some params => infer_instance

/-- The scales of the channels, as a constant. -/
instance reading_channelScaleNode (operand : Operand) :
    Reading (self.channelScaleNode operand) := by
  refine .bind inferInstance fun params => .ite ?_ inferInstance
  exact .bind inferInstance fun never => nomatch never

/-- Quantizing makes nodes, and follows a null one for other types. -/
instance reading_quantizeNode (input : Node) (index : Nat) (type : ElementType) :
    Reading (self.quantizeNode input index type) := by
  have hclamp : ∀ sum : Node, Reading (match self.sModelInfo.getOperandType index with
      | .tensorQuant8Asymm => makeShared (.clamp (.int 0) (.int 255)) [sum]
      | .tensorQuant8Symm | .tensorQuant8AsymmSigned =>
          makeShared (.clamp (.int (-128)) (.int 127)) [sum]
      | .tensorQuant16Symm => makeShared (.clamp (.int (-32768)) (.int 32767)) [sum]
      | .tensorQuant16Asymm => makeShared (.clamp (.int 0) (.int 65535)) [sum]
      | _ => deref none) := by
    intro sum
    split <;> infer_instance
  unfold OperationsBase.quantizeNode
  infer_instance

/-- Dequantizing makes nodes. -/
instance reading_dequantizeNode (input : Node) (index : Nat) (type : ElementType) :
    Reading (self.dequantizeNode input index type) := by
  unfold OperationsBase.dequantizeNode
  infer_instance

/-- An input: a constant of the model, or the entry of its operand. -/
instance reading_getInputNode (input : Nat) (dequantize : Bool) :
    Reading (self.getInputNode input dequantize) := by
  unfold OperationsBase.getInputNode
  dsimp only
  cases (self.sModelInfo.getOperandType (self.inputIndex input)).constElement <;> infer_instance

/-- The layout, where the operation has the flag. -/
instance reading_useNchw (inputsSize index : Nat) :
    Reading (self.useNchw inputsSize index) := by
  unfold OperationsBase.useNchw
  infer_instance

end

/-! ## The classes -/

section

set_option synthInstance.maxSize 4096

variable {self : OperationsBase}

/-- The classes of one input. -/
instance reading_unaryNode (op : NodeOp) : Reading (self.unaryNode op) := by
  unfold OperationsBase.unaryNode
  infer_instance

/-- The classes of two inputs. -/
instance reading_binaryNode (op : NodeOp) : Reading (self.binaryNode op) := by
  unfold OperationsBase.binaryNode
  infer_instance

/-- Those with a fused activation. -/
instance reading_activatedNode (op : NodeOp) : Reading (self.activatedNode op) := by
  unfold OperationsBase.activatedNode
  infer_instance

instance : Reading (RSQRT.createNode self) := by
  unfold RSQRT.createNode
  infer_instance

instance : Reading (Add.createNodeForPlugin self) := by
  unfold Add.createNodeForPlugin Add.createNode
  infer_instance

instance : Reading (Select.createNode self) := by
  unfold Select.createNode
  infer_instance

instance : Reading (Dequantize.createNode self) := by
  unfold Dequantize.createNode
  infer_instance

/-- A cast to a quantized type has two steps more. -/
instance reading_clamped (input : Node) (low high : Int) (elementType : ElementType) :
    Reading (Cast.clamped input low high elementType) := by
  unfold Cast.clamped
  infer_instance

/-- Every type has its conversion. -/
instance reading_convert (input : Node) : Reading (Cast.convert self input) := by
  unfold Cast.convert
  split <;> infer_instance

/-- The `Reduce` family. -/
instance reading_reduceNode (op : Bool → NodeOp) : Reading (self.reduceNode op) := by
  unfold OperationsBase.reduceNode
  infer_instance

instance : Reading (Mean.createNode self) := by
  unfold Mean.createNode
  infer_instance

/-- `Argmax` and `Argmin`. -/
instance reading_argNode (max : Bool) : Reading (self.argNode max) := by
  unfold OperationsBase.argNode
  infer_instance

/-- The factor of the softmax classes. -/
instance reading_betaNode (shape : List Nat) : Reading (self.betaNode shape) := by
  unfold OperationsBase.betaNode
  infer_instance

/-- The axis of a normalization, given or the last one. -/
instance reading_axisNode (inputsSize index : Nat) :
    Reading (self.axisNode inputsSize index) := by
  unfold OperationsBase.axisNode
  infer_instance

instance : Reading (Softmax.createNode self) := by
  unfold Softmax.createNode
  infer_instance

instance : Reading (LogSoftmax.createNode self) := by
  unfold LogSoftmax.createNode
  infer_instance

instance : Reading (L2Normalization.createNode self) := by
  unfold L2Normalization.createNode
  infer_instance

instance : Reading (InstanceNormalization.createNode self) := by
  unfold InstanceNormalization.createNode
  dsimp only
  infer_instance

instance : Reading (Gather.createNode self) := by
  unfold Gather.createNode
  infer_instance

instance : Reading (EmbeddingLookup.createNode self) := by
  unfold EmbeddingLookup.createNode
  infer_instance

/-- The bits of a mask are shifted out one after the other. -/
instance reading_getMaskBits (maskValue : Int) (vecSize : Nat) :
    Reading (StridedSlice.getMaskBits maskValue vecSize) := by
  have hfrom : ∀ fuel maskValue i bits,
      Reading (StridedSlice.getMaskBitsFrom fuel maskValue i bits) := by
    intro fuel
    induction fuel with
    | zero => exact fun _ _ _ => only_pure _
    | succ fuel ih =>
        intro maskValue i bits
        unfold StridedSlice.getMaskBitsFrom
        infer_instance
  exact hfrom _ _ _ _

instance : Reading (StridedSlice.createNode self) := by
  unfold StridedSlice.createNode
  infer_instance

instance : Reading (ExpandDims.createNode self) := by
  unfold ExpandDims.createNode
  infer_instance

instance : Reading (Squeeze.createNode self) := by
  unfold Squeeze.createNode
  infer_instance

instance : Reading (Transpose.createNode self) := by
  unfold Transpose.createNode
  infer_instance

/-- The stretched dimension is the quotient of the others. -/
instance reading_outputDims (inDims : List Nat) (outDims : List Int) :
    Reading (Reshape.outputDims inDims outDims) := by
  unfold Reshape.outputDims
  cases Reshape.strechDim outDims <;> infer_instance

instance : Reading (Reshape.createNode self) := by
  unfold Reshape.createNode
  infer_instance

instance : Reading (Concat.createNode self) := by
  unfold Concat.createNode
  infer_instance

instance : Reading (Pad.createNode self) := by
  unfold Pad.createNode
  infer_instance

/-- The value of the padding, by the type of the operand. -/
instance reading_padValue : Reading (PadV2.padValue self) := by
  unfold PadV2.padValue
  split <;> infer_instance

instance : Reading (PadV2.createNode self) := by
  unfold PadV2.createNode
  infer_instance

/-- The two classes of depth. -/
instance reading_blockNode (op : Nat → NodeOp) : Reading (self.blockNode op) := by
  unfold OperationsBase.blockNode
  infer_instance

instance : Reading (BatchToSpace.createNode self) := by
  unfold BatchToSpace.createNode
  infer_instance

instance : Reading (SpaceToBatch.createNode self) := by
  unfold SpaceToBatch.createNode
  infer_instance

/-- The axes that bring a lower rank to four. -/
instance reading_squeezeAxes (inputRank : Nat) :
    Reading (ChannelShuffle.squeezeAxes inputRank) := by
  unfold ChannelShuffle.squeezeAxes
  split <;> infer_instance

instance : Reading (ChannelShuffle.createNode self) := by
  unfold ChannelShuffle.createNode
  infer_instance

/-- The flags of a resize. -/
instance reading_resizeFlags : Reading self.resizeFlags := by
  unfold OperationsBase.resizeFlags
  infer_instance

/-- Its sizes, given as sizes or as factors. -/
instance reading_resizeSizes (inputWidth inputHeight : Int) :
    Reading (self.resizeSizes inputWidth inputHeight) := by
  unfold OperationsBase.resizeSizes
  split <;> infer_instance

/-- The factors, as a constant. -/
instance reading_resizeScaleNode (sizes : ResizeSizes) :
    Reading (self.resizeScaleNode sizes) := by
  unfold OperationsBase.resizeScaleNode
  split <;> infer_instance

/-- Both resizes, whatever their sizes and attributes are. -/
instance reading_resizeNode (resizeSizes : Int → Int → Gen ResizeSizes)
    (attrs : ResizeFlags → InterpolateAttrs) [∀ w h, Reading (resizeSizes w h)] :
    Reading (self.resizeNode resizeSizes attrs) := by
  unfold OperationsBase.resizeNode
  infer_instance

instance : Reading (ResizeBilinear.createNode self) := reading_resizeNode _ _

instance : Reading (ResizeNearestNeighbor.createNode self) := by
  have hsizes : ∀ w h, Reading (ResizeNearestNeighbor.resizeSizes self w h) := by
    intro w h
    unfold ResizeNearestNeighbor.resizeSizes
    infer_instance
  exact reading_resizeNode _ _

instance : Reading (ROIAlign.createNode self) := by
  unfold ROIAlign.createNode
  infer_instance

instance : Reading (ROIPooling.createNode self) := by
  unfold ROIPooling.createNode
  infer_instance

/-- A signed scalar. -/
instance reading_parseInt32 (index : Nat) : Reading (self.parseInt32 index) := by
  unfold OperationsBase.parseInt32
  infer_instance

/-- One that is there for some signatures only. -/
instance reading_parseInt32If (b : Bool) (index : Nat) (otherwise : Int) :
    Reading (self.parseInt32If b index otherwise) := by
  unfold OperationsBase.parseInt32If
  infer_instance

/-- What follows the paddings or the scheme. -/
instance reading_convTrailing (index : Nat) : Reading (self.convTrailing index) := by
  unfold OperationsBase.convTrailing
  infer_instance

/-- Height, width and channels, by the layout. -/
instance reading_convInputSizes (hasChannel useNchw : Bool) :
    Reading (self.convInputSizes hasChannel useNchw) := by
  unfold OperationsBase.convInputSizes
  infer_instance

/-- The number of groups, where there is one. -/
instance reading_convGroups (cls : ConvClass) (index : Nat) :
    Reading (self.convGroups cls index) := by
  unfold OperationsBase.convGroups
  infer_instance

/-- The signature that gives the paddings. -/
instance reading_convExplicitLocals (cls : ConvClass) :
    Reading (self.convExplicitLocals cls) := by
  unfold OperationsBase.convExplicitLocals
  dsimp only
  infer_instance

/-- The paddings that a scheme stands for. -/
instance reading_convImplicitPadding (cls : ConvClass)
    (scheme strideWidth strideHeight inputWidth inputHeight filterWidth filterHeight : Int) :
    Reading (OperationsBase.convImplicitPadding cls scheme strideWidth strideHeight inputWidth
      inputHeight filterWidth filterHeight) := by
  unfold OperationsBase.convImplicitPadding
  infer_instance

/-- The signature that gives a scheme. -/
instance reading_convImplicitLocals (cls : ConvClass) (filterWidth filterHeight : Int) :
    Reading (self.convImplicitLocals cls filterWidth filterHeight) := by
  unfold OperationsBase.convImplicitLocals
  dsimp only
  infer_instance

/-- Either signature of a convolution. -/
instance reading_convLocals (cls : ConvClass) : Reading (self.convLocals cls) := by
  unfold OperationsBase.convLocals
  infer_instance

/-- The bias, dequantized where it is stored as integers. -/
instance reading_convBias (biasNode : Node) : Reading (self.convBias biasNode) := by
  unfold OperationsBase.convBias
  infer_instance

/-- The channels of one group. -/
instance reading_divSizeT (a : Nat) (b : Int) : Reading (OperationsBase.divSizeT a b) := by
  unfold OperationsBase.divSizeT
  infer_instance

/-- The filter, split into groups. -/
instance reading_groupedFilter (cls : ConvClass) (filterNode : Node) (divisor : Int) :
    Reading (OperationsBase.groupedFilter cls filterNode divisor) := by
  unfold OperationsBase.groupedFilter
  infer_instance

/-- The bias is reshaped, added and activated. -/
instance reading_addBias (convNode biasNode : Node) (activationFn : Int) :
    Reading (self.addBias convNode biasNode activationFn) := by
  unfold OperationsBase.addBias
  infer_instance

/-- The attributes read every local of the signature. -/
instance reading_convAttrs (cls : ConvClass) (l : ConvLocals) :
    Reading (OperationsBase.convAttrs cls l) := by
  unfold OperationsBase.convAttrs
  infer_instance

/-- The four convolutions. -/
instance reading_convNode (cls : ConvClass) : Reading (self.convNode cls) := by
  unfold OperationsBase.convNode
  infer_instance

/-- A transposed convolution reads its locals in either signature. -/
instance reading_transposeConvLocals : Reading (TransposeConv2D.locals self) := by
  unfold TransposeConv2D.locals TransposeConv2D.explicitLocals TransposeConv2D.implicitLocals
  infer_instance

instance : Reading (TransposeConv2D.createNode self) := by
  refine .bind inferInstance fun l => ?_
  obtain ⟨l, outputShapeNode⟩ := l
  cases outputShapeNode <;> (dsimp only; infer_instance)

/-- The signatures of a pooling. -/
instance reading_poolLocals (cls : PoolClass) : Reading (self.poolLocals cls) := by
  unfold OperationsBase.poolLocals OperationsBase.poolExplicitLocals
    OperationsBase.poolImplicitLocals OperationsBase.poolImplicitPadding
  infer_instance

/-- Its attributes read every local. -/
instance reading_poolAttrs (l : PoolLocals) : Reading (OperationsBase.poolAttrs l) := by
  unfold OperationsBase.poolAttrs
  infer_instance

instance : Reading (AveragePool2D.createNode self) := by
  unfold AveragePool2D.createNode
  infer_instance

instance : Reading (MaxPool2d.createNode self) := by
  unfold MaxPool2d.createNode
  infer_instance

instance : Reading (L2Pooling2D.createNode self) := by
  unfold L2Pooling2D.createNode
  infer_instance

/-- The product of a fully connected layer, reshaped first where needed. -/
instance reading_multiplyNode (inputNode weightsNode : Node) :
    Reading (FullyConnected.multiplyNode self inputNode weightsNode) := by
  unfold FullyConnected.multiplyNode
  infer_instance

/-- Its bias. -/
instance reading_addNode (multiplyNode : Node) :
    Reading (FullyConnected.addNode self multiplyNode) := by
  unfold FullyConnected.addNode
  infer_instance

instance : Reading (FullyConnected.createNode self) := by
  unfold FullyConnected.createNode
  infer_instance

end

/-! ## The recurrent classes, up to their outputs -/

section

variable {self : OperationsBase}

/-- The products with the weights, and the bias. -/
instance reading_rnnProducts (x : Output) (W R bias hidden : Node) :
    Reading (rnnProducts x W R bias hidden) := by
  unfold rnnProducts
  infer_instance

/-- The output of one step. -/
instance reading_rnnOutput (input_W add : Node) (activationFn : Int) :
    Reading (rnnOutput input_W add activationFn) := by
  unfold rnnOutput
  infer_instance

/-- One step. -/
instance reading_rnnStep (x : Output) (W R bias hidden : Node) (activationFn : Int) :
    Reading (rnnStep x W R bias hidden activationFn) := by
  unfold rnnStep
  infer_instance

/-- The outputs of all steps, along the time axis. -/
instance reading_joinSteps (inputNode : Node) (maxTime : Nat) (outputs : List Node) :
    Reading (joinSteps inputNode maxTime outputs) := by
  unfold joinSteps
  infer_instance

/-- The number of steps is a size of the input. -/
instance reading_maxTime (isTimeMajor : Bool) : Reading (self.maxTime isTimeMajor) :=
  reading_dimAt _ _

/-- All steps, by induction over the times. -/
instance reading_steps (inputSplit W R bias : Node) (activationFn : Int) (times : List Nat)
    (hidden : Node) :
    Reading (UnidirectionalSequenceRNN.steps inputSplit W R bias activationFn times hidden) := by
  induction times generalizing hidden with
  | nil => exact only_pure _
  | cons i times ih =>
      unfold UnidirectionalSequenceRNN.steps
      infer_instance

namespace BidirectionalSequenceRNN

/-- The auxiliary input, where there is one. -/
instance reading_addAux (aux : Aux) (auxInput : Output) (dims auxWeights add : Node) :
    Reading (addAux aux auxInput dims auxWeights add) := by
  unfold addAux
  infer_instance

/-- The steps of the forward layer, by induction over the times. -/
instance reading_forward (aux : Aux) (inputSplit auxInputSplit W R bias auxWeights : Node)
    (activationFn : Int) (times : List Nat) (hidden : Node) :
    Reading (forward aux inputSplit auxInputSplit W R bias auxWeights activationFn times
      hidden) := by
  induction times generalizing hidden with
  | nil => exact only_pure _
  | cons i times ih =>
      unfold forward
      infer_instance

/-- Those of the backward layer, over the slices in reverse. -/
instance reading_backward (aux : Aux) (W R bias auxWeights : Node) (activationFn : Int)
    (steps : List Step) (hidden : Node) :
    Reading (backward aux W R bias auxWeights activationFn steps hidden) := by
  induction steps generalizing hidden with
  | nil => exact only_pure _
  | cons step steps ih =>
      unfold backward
      infer_instance

end BidirectionalSequenceRNN

namespace LSTM

/-- Every optional part of the cell is fetched, or stands as zeros. -/
instance reading_peepholeNodes (m : Modes) (elementType : ElementType) (num_units : Nat) :
    Reading (peepholeNodes self m elementType num_units) := by
  unfold peepholeNodes
  infer_instance

/-- The projection, and its bias. -/
instance reading_projectionNodes (m : Modes) (elementType : ElementType) (output_size : Nat) :
    Reading (projectionNodes self m elementType output_size) := by
  unfold projectionNodes
  infer_instance

/-- Its bound. -/
instance reading_projectionClipping (m : Modes) : Reading (projectionClipping self m) := by
  unfold projectionClipping
  infer_instance

/-- The weights of the normalisation. -/
instance reading_layerNormNodes (m : Modes) : Reading (layerNormNodes self m) := by
  unfold layerNormNodes
  infer_instance

/-- The activation of the cell is always a node. -/
instance reading_applyActivation (arg : Node) (activationFn : Int) :
    Reading (applyActivation arg activationFn) := by
  unfold applyActivation
  infer_instance

/-- A bound of zero is none. -/
instance reading_clip (T : CType) (data : Node) (m_clip : Int) :
    Reading (clip T data m_clip) := by
  unfold clip
  infer_instance

/-- The sum under a gate. -/
instance reading_gateSum (x W h R : Node) : Reading (gateSum x W h R) := by
  unfold gateSum matMul add
  infer_instance

/-- The same with the peephole weights. -/
instance reading_peepholeSum (x W h R w c : Node) : Reading (peepholeSum x W h R w c) := by
  unfold peepholeSum mul add
  infer_instance

/-- Mean, variance and quotient of one row. -/
instance reading_LayerNorm (x weights bias : Node) : Reading (LayerNorm x weights bias) := by
  unfold LayerNorm sub mul add
  refine .bind inferInstance fun _ => .bind inferInstance fun _ => .bind inferInstance fun _ => ?_
  infer_instance

/-- A gate, normalised where the cell is. -/
instance reading_gate (x : Node) (weights : NodePtr) (bias : Node) (isLayerNormUsed : Bool) :
    Reading (gate x weights bias isLayerNormUsed) := by
  unfold gate add
  infer_instance

/-- The scratch buffer is zeros in the shape of a gate. -/
instance reading_scratchNode (elementType : ElementType) (i_t : Node) (gates : Nat) :
    Reading (scratchNode elementType i_t gates) := by
  unfold scratchNode
  infer_instance

/-- What the input gate is the sigmoid of. -/
instance reading_inputSum (c : Cell) : Reading (inputSum c) := by
  unfold inputSum
  infer_instance

/-- The input gate, coupled or of its own. -/
instance reading_inputGate (c : Cell) (i_t : NodePtr) (f_t : Node) :
    Reading (inputGate c i_t f_t) := by
  unfold inputGate sub
  infer_instance

/-- The output state, projected where the cell is. -/
instance reading_hiddenState (c : Cell) (o_t C : Node) : Reading (hiddenState c o_t C) := by
  unfold hiddenState mul matMul add
  split <;> infer_instance

/-- The whole cell. -/
instance reading_cellOutputs (c : Cell) : Reading (cellOutputs c) := by
  unfold cellOutputs mul add
  refine .bind inferInstance fun _ => .bind inferInstance fun _ => .bind inferInstance fun _ => ?_
  refine .bind inferInstance fun _ => .bind inferInstance fun _ => .bind inferInstance fun _ => ?_
  refine .bind inferInstance fun _ => .bind inferInstance fun _ => .bind inferInstance fun _ => ?_
  refine .bind inferInstance fun _ => .bind inferInstance fun _ => .bind inferInstance fun _ => ?_
  infer_instance

end LSTM

end

/-- The conversions of `TOPK_V2` only read. -/
theorem TopkV2.reading_outNode {self : OperationsBase} (topk : Node) (i : Nat) :
    ∀ p ∈ TopkV2.outNode self topk i, Reading p := by
  unfold TopkV2.outNode
  intro p hp
  split at hp <;> simp only [Option.mem_def, Option.some.injEq, reduceCtorEq] at hp <;> subst hp
  all_goals infer_instance

/-- Those of `SPLIT` too. -/
theorem Split.reading_outNode {self : OperationsBase} (split : Node) (i : Nat) :
    ∀ p ∈ Split.outNode self split i, Reading p := by
  unfold Split.outNode
  intro p hp
  split at hp <;> simp only [Option.mem_def, Option.some.injEq, reduceCtorEq] at hp <;> subst hp
  all_goals infer_instance

/-! ## What binding an output changes -/

section

variable {ng : Ngraph} {nodes : NgraphNodes} {self : OperationsBase}

/-- Registering a result leaves the entries of the table. -/
theorem leaves_addModelOutput (index : Nat) (node : NodePtr) :
    Leaves (answer ng) nodes (self.addModelOutput index node) fun _ s =>
      s.mOutputAtOperandIndex = nodes.mOutputAtOperandIndex := by
  unfold OperationsBase.addModelOutput
  split
  · exact leaves_perform rfl rfl
  · exact ⟨(), rfl, rfl⟩

/-- Whether or not the run returns. -/
theorem ends_addModelOutput (index : Nat) (node : NodePtr) :
    Ends (answer ng) nodes (self.addModelOutput index node) fun _ s =>
      s.mOutputAtOperandIndex = nodes.mOutputAtOperandIndex :=
  (leaves_addModelOutput index node).ends

/-- Binding an output writes one entry. -/
theorem leaves_setOutput (index : Nat) (output : Option Output) :
    Leaves (answer ng) nodes (issue (.setOutputAtOperandIndex index output)) fun _ s =>
      s.mOutputAtOperandIndex = Function.update nodes.mOutputAtOperandIndex index output :=
  leaves_perform rfl rfl

theorem ends_setOutput (index : Nat) (output : Option Output) :
    Ends (answer ng) nodes (issue (.setOutputAtOperandIndex index output)) fun _ s =>
      s.mOutputAtOperandIndex = Function.update nodes.mOutputAtOperandIndex index output :=
  (leaves_setOutput index output).ends

/-- Binding and registering an output writes one entry. -/
theorem leaves_setOperationOutput (index : Nat) (outNode : NodePtr) :
    Leaves (answer ng) nodes (self.setOperationOutput index outNode) fun _ s =>
      s.mOutputAtOperandIndex =
        Function.update nodes.mOutputAtOperandIndex index (outNode.map (·, 0)) := by
  apply (leaves_setOutput index _).bind
  intro _ s hset
  apply (leaves_addModelOutput index outNode).mono
  intro _ s' hadd
  rw [hadd, hset]

theorem ends_setOperationOutput (index : Nat) (outNode : NodePtr) :
    Ends (answer ng) nodes (self.setOperationOutput index outNode) fun _ s =>
      s.mOutputAtOperandIndex =
        Function.update nodes.mOutputAtOperandIndex index (outNode.map (·, 0)) :=
  (leaves_setOperationOutput index outNode).ends

/-- The same where the node is made first. -/
theorem ends_setConverted (index : Nat) {convert : Gen Node} {Q : Node → Prop}
    (hconvert : Returns (answer ng) nodes convert Q) :
    Ends (answer ng) nodes (self.setConverted index (some convert)) fun _ s =>
      ∃ node, Q node ∧ s.mOutputAtOperandIndex =
        Function.update nodes.mOutputAtOperandIndex index (some (node, 0)) :=
  hconvert.bind_ends fun node hnode =>
    (ends_setOperationOutput index (some node)).mono fun _ _ hs => ⟨node, hnode, hs⟩

/-- Whatever is made first, one entry is written. -/
theorem ends_setReading (index : Nat) {outNode : Option (Gen Node)}
    (hreads : ∀ p ∈ outNode, Reading p) :
    Ends (answer ng) nodes (self.setConverted index outNode) fun _ s => ∃ output,
      s.mOutputAtOperandIndex = Function.update nodes.mOutputAtOperandIndex index output := by
  cases outNode with
  | none => exact (ends_setOperationOutput index none).mono fun _ _ hs => ⟨none, hs⟩
  | some convert =>
      have hreturns := (hreads convert rfl).returns ng nodes
      exact (ends_setConverted index hreturns).mono fun _ _ ⟨node, _, hs⟩ => ⟨some (node, 0), hs⟩

/-- A loop that binds a different output in every round leaves all of them bound. -/
theorem ends_forM {ι : Type} {f : ι → Gen PUnit} {index : ι → Nat} {Q : ι → Option Output → Prop}
    (hround : ∀ i s, Ends (answer ng) s (f i) fun _ s' => ∃ output, Q i output ∧
      s'.mOutputAtOperandIndex = Function.update s.mOutputAtOperandIndex (index i) output)
    {l : List ι} (hdistinct : (l.map index).Nodup) :
    Ends (answer ng) nodes (forM l f) fun _ s =>
      (∀ i ∈ l, Q i (s.mOutputAtOperandIndex (index i))) ∧
        ∀ j, j ∉ l.map index → s.mOutputAtOperandIndex j = nodes.mOutputAtOperandIndex j := by
  induction l generalizing nodes with
  | nil =>
      intro _ _
      exact ⟨nofun, fun _ _ => rfl⟩
  | cons i l ih =>
      rw [List.map_cons, List.nodup_cons] at hdistinct
      rcases hdistinct with ⟨hfirst, hrest⟩
      rw [List.forM_cons]
      refine (hround i nodes).bind fun _ s hs => (ih hrest).mono fun _ s' hs' => ?_
      rcases hs with ⟨output, hQ, hset⟩
      rcases hs' with ⟨hbound, hother⟩
      refine ⟨fun j hj => ?_, fun j hj => ?_⟩
      · rcases List.mem_cons.mp hj with rfl | hj
        · rw [hother _ hfirst, hset, Function.update_self]
          exact hQ
        · exact hbound j hj
      · rw [List.map_cons, List.mem_cons, not_or] at hj
        rw [hother j hj.2, hset, Function.update_of_ne hj.1]

end

end NnHal
