import NnHal.PerChannel
import NnHal.Reading

/-!
# The bias of a per-channel convolution

The bias of such a convolution is stored with the product of the input's scale
and the channel's.  The code multiplies it by the product of the scales of the
filter and of operand 0 of the model, which is input 0 of the operation only
where the numbering says so.
-/

namespace NnHal

open Command Tensors Quantization

/-! ## The node that is added -/

/-- The node is added to the convolution of a graph, reshaped to its channels. -/
inductive Node.BiasOf (bias : Node) : Node → Prop
  | add (convNode shape : Node) :
      BiasOf bias (.mk .add [(convNode, 0), (.mk (.reshape true) [(bias, 0), (shape, 0)], 0)])
  | relu {node : Node} (h : BiasOf bias node) : BiasOf bias (.mk .relu [(node, 0)])
  | clamp {node : Node} (low high : Scalar) (h : BiasOf bias node) :
      BiasOf bias (.mk (.clamp low high) [(node, 0)])
  | transpose {node : Node} (order : Node) (h : BiasOf bias node) :
      BiasOf bias (.mk .transpose [(node, 0), (order, 0)])

theorem Node.BiasOf.unique {bias bias' node : Node} (h : bias.BiasOf node)
    (h' : bias'.BiasOf node) : bias = bias' := by
  induction h with
  | add convNode shape => cases h'; rfl
  | relu _ ih => cases h' with | relu h' => exact ih h'
  | clamp _ _ _ ih => cases h' with | clamp _ _ h' => exact ih h'
  | transpose _ _ ih => cases h' with | transpose _ h' => exact ih h'

/-- The node of a bias times that of its scales. -/
def Node.scaledBy (bias multiplier : Node) : Node :=
  .mk .multiply [(.mk (.convert .f32) [(bias, 0)], 0), (multiplier, 0)]

/-- The scales of the filter as a constant. -/
def SymmPerChannelQuantParams.node (params : SymmPerChannelQuantParams) : Node :=
  .mk (.constant .f32 [params.scales.length] (params.scales.map .float32)) []

/-- What the code multiplies the bias by. -/
def OperationsBase.biasMultiplier (self : OperationsBase) (params : SymmPerChannelQuantParams) :
    Node :=
  .mk .multiply [(params.node, 0),
    (.mk (.constant .f32 [1] [self.sModelInfo.getOperandScale 0]) [], 0)]

section Runs

variable {ng : Ngraph} {nodes : NgraphNodes} {self : OperationsBase}
variable {params : SymmPerChannelQuantParams}

theorem returns_convBias (htype : (self.getInputOperand 1).type = .tensorQuant8SymmPerChannel)
    (hparams : (self.getInputOperand 1).channelQuant = some params) (biasNode : Node) :
    Returns (answer ng) nodes (self.convBias biasNode)
      (· = biasNode.scaledBy (self.biasMultiplier params)) := by
  have hfilter : self.checkInputOperandType 1 .tensorQuant8SymmPerChannel = true :=
    decide_eq_true htype
  unfold OperationsBase.convBias OperationsBase.channelQuant
  rw [if_pos hfilter, hparams]
  refine Returns.bind (Q := (· = params)) (returns_pure rfl) ?_
  intro _ heq
  subst heq
  refine Returns.bind (Q := (· = SymmPerChannelQuantParams.node _)) (returns_const rfl) ?_
  intro _ heq
  subst heq
  refine Returns.bind (Q := (· = .mk (.constant .f32 [1] [self.sModelInfo.getOperandScale 0]) []))
    (returns_const rfl) ?_
  intro _ heq
  subst heq
  refine Returns.bind (Q := (· = self.biasMultiplier _)) (returns_make rfl) ?_
  intro _ heq
  subst heq
  refine Returns.bind (Q := (· = .mk (.convert .f32) [(biasNode, 0)])) (returns_make rfl) ?_
  intro _ heq
  subst heq
  exact returns_make rfl

theorem returns_applyActivation_biasOf {bias node : Node} (h : bias.BiasOf node) (code : Int) :
    Returns (answer ng) nodes (applyActivation node code) (Node.BiasOf bias) := by
  unfold applyActivation
  refine returns_ite (fun _ => returns_pure h) fun _ => ?_
  refine returns_ite (fun _ => returns_make (.relu h)) fun _ => ?_
  refine returns_ite (fun _ => returns_make (.clamp _ _ h)) fun _ => ?_
  exact returns_ite (fun _ => returns_make (.clamp _ _ h)) fun _ => returns_pure h

theorem returns_addBias_biasOf (convNode biasNode : Node) (code : Int) :
    Returns (answer ng) nodes (self.addBias convNode biasNode code) (Node.BiasOf biasNode) := by
  unfold OperationsBase.addBias
  refine returns_step fun _ => returns_step fun _ => returns_step fun _ => ?_
  apply returns_step
  intro shapeNode
  refine Returns.bind (Q := (· = .mk (.reshape true) [(biasNode, 0), (shapeNode, 0)]))
    (returns_make rfl) ?_
  intro _ heq
  subst heq
  refine Returns.bind (Q := Node.BiasOf biasNode) (returns_make (.add convNode shapeNode)) ?_
  exact fun _ h => returns_applyActivation_biasOf h code

theorem returns_transposeUnless_biasOf {bias node : Node} (h : bias.BiasOf node)
    (useNchw : Bool) (type : ConversionType) :
    Returns (answer ng) nodes (transposeUnless useNchw type node) (Node.BiasOf bias) := by
  unfold transposeUnless transpose
  refine returns_ite (fun _ => returns_pure h) fun _ => ?_
  exact returns_step fun order => returns_make (.transpose order h)

/-! ## The classes -/

/-- What the four convolution classes run. -/
inductive ConvolutionNode (self : OperationsBase) : Gen Node → Prop
  | conv2d : ConvolutionNode self (Conv2d.createNode self)
  | depthwiseConv2d : ConvolutionNode self (DepthwiseConv2d.createNode self)
  | groupedConv2d : ConvolutionNode self (GroupedConv2d.createNode self)
  | transposeConv2D : ConvolutionNode self (TransposeConv2D.createNode self)

/-- The node is made with the bias of the operation times that multiplier. -/
def OperationsBase.ScalesBias (self : OperationsBase) (ng : Ngraph) (nodes : NgraphNodes)
    (node bias multiplier : Node) : Prop :=
  (exec (answer ng) (self.getInputNode 2) nodes).outcome = .ok bias ∧
    (bias.scaledBy multiplier).BiasOf node

theorem OperationsBase.ScalesBias.unique {node bias bias' multiplier multiplier' : Node}
    (h : self.ScalesBias ng nodes node bias multiplier)
    (h' : self.ScalesBias ng nodes node bias' multiplier') : multiplier = multiplier' := by
  have heq := h.2.unique h'.2
  simp only [Node.scaledBy, Node.mk.injEq, List.cons.injEq, Prod.mk.injEq, and_true,
    true_and] at heq
  exact heq.2

/-- The last steps of every class. -/
theorem returns_biased (convNode : Node) {bias multiplier : Node}
    (hbias : (exec (answer ng) (self.getInputNode 2) nodes).outcome = .ok bias) (code : Int)
    (useNchw : Bool) (type : ConversionType) :
    Returns (answer ng) nodes (do
      let outputNode ← self.addBias convNode (bias.scaledBy multiplier) code
      transposeUnless useNchw type outputNode)
      fun node => self.ScalesBias ng nodes node bias multiplier := by
  apply (returns_addBias_biasOf _ _ _).bind
  intro outputNode houtput
  exact (returns_transposeUnless_biasOf houtput _ _).mono fun node hnode => ⟨hbias, hnode⟩

section Classes

variable (htype : (self.getInputOperand 1).type = .tensorQuant8SymmPerChannel)
variable (hparams : (self.getInputOperand 1).channelQuant = some params)

include htype hparams

theorem returns_convNode_scalesBias (cls : ConvClass) :
    Returns (answer ng) nodes (self.convNode cls) fun node =>
      ∃ bias, self.ScalesBias ng nodes node bias (self.biasMultiplier params) := by
  have hbiasNode : Reading (self.getInputNode 2) := inferInstance
  unfold OperationsBase.convNode
  apply returns_step
  intro l
  apply returns_step
  intro inputNode
  apply returns_step
  intro filterNode
  apply (hbiasNode.returns_outcome ng nodes).bind
  intro bias hbias
  refine (returns_convBias htype hparams bias).bind ?_
  intro _ heq
  subst heq
  refine returns_step fun _ => returns_step fun _ => returns_step fun _ => returns_step fun _ => ?_
  refine returns_step fun _ => ?_
  exact (returns_biased _ hbias _ _ _).mono fun node hnode => ⟨bias, hnode⟩

theorem returns_transposeConv_scalesBias :
    Returns (answer ng) nodes (TransposeConv2D.createNode self) fun node =>
      ∃ bias, self.ScalesBias ng nodes node bias (self.biasMultiplier params) := by
  have hbiasNode : Reading (self.getInputNode 2) := inferInstance
  unfold TransposeConv2D.createNode
  apply returns_step
  intro l
  rcases l with ⟨l, outputShapeNode⟩
  apply returns_step
  intro inputNode
  apply returns_step
  intro filterNode
  apply (hbiasNode.returns_outcome ng nodes).bind
  intro bias hbias
  refine (returns_convBias htype hparams bias).bind ?_
  intro _ heq
  subst heq
  refine returns_step fun _ => returns_step fun _ => ?_
  cases outputShapeNode with
  | none =>
      refine returns_step fun _ => returns_step fun _ => ?_
      exact (returns_biased _ hbias _ _ _).mono fun node hnode => ⟨bias, hnode⟩
  | some outputShapeNode =>
      refine returns_step fun _ => returns_step fun _ => ?_
      exact (returns_biased _ hbias _ _ _).mono fun node hnode => ⟨bias, hnode⟩

theorem ConvolutionNode.scalesBias {createNode : Gen Node}
    (hclass : ConvolutionNode self createNode) {node : Node}
    (hnode : (exec (answer ng) createNode nodes).outcome = .ok node) :
    ∃ bias, self.ScalesBias ng nodes node bias (self.biasMultiplier params) := by
  cases hclass with
  | conv2d | depthwiseConv2d | groupedConv2d =>
      exact (returns_convNode_scalesBias htype hparams _ node hnode).2
  | transposeConv2D => exact (returns_transposeConv_scalesBias htype hparams node hnode).2

end Classes

/-! ## The multiplier -/

section Multiplier

variable {M : Meaning Element} {conv : Conversion}

/-- The scale of an operand of the model. -/
def OperationsBase.scaleOf (self : OperationsBase) (operand : Nat) : Rat :=
  FloatFormat.binary32.value (self.sModelInfo.getOperand operand).scale

/-- The same as the scale of a single channel. -/
def OperationsBase.singleScale (self : OperationsBase) : SymmPerChannelQuantParams :=
  ⟨[(self.sModelInfo.getOperand 0).scale], 0⟩

theorem biasMultiplier_denote (hM : M.Computes conv) :
    (self.biasMultiplier params).denote M 0 =
      Tensor.broadcast (Element.arith (· * ·)) (params.tensor 0) (self.singleScale.tensor 0) := by
  have hfilter : params.node.denote M 0 = params.tensor 0 := hM.scales params 0
  have hinput : self.singleScale.node.denote M 0 = self.singleScale.tensor 0 :=
    hM.scales self.singleScale 0
  have hnode : self.biasMultiplier params =
      .mk .multiply [(params.node, 0), (self.singleScale.node, 0)] := rfl
  rw [hnode, Node.denote_mk_two, hfilter, hinput]
  exact hM.multiply .f32 _ _ (typed_ofFn _ _) (typed_ofFn _ _)

/-- A vector takes its shape from its own size, also if that is one. -/
theorem broadcastShape_single (size : Nat) : Tensor.broadcastShape [size] [1] = [size] := by
  have hentry : (if size = 1 then 1 else size) = size := by
    split <;> omega
  simp [Tensor.broadcastShape, hentry]

theorem shape_biasMultiplier (hM : M.Computes conv) :
    ((self.biasMultiplier params).denote M 0).shape = [params.scales.length] := by
  rw [biasMultiplier_denote hM]
  exact broadcastShape_single _

/-- For every channel it is the product of the channel's scale and operand 0's. -/
theorem biasMultiplier_valueAt (hM : M.Computes conv) {i : Int}
    (hi : Inside [params.scales.length] [i]) :
    (self.biasMultiplier params).valueAt M [i] = params.scale i * self.scaleOf 0 := by
  have hshape : Tensor.broadcastShape (params.tensor 0).shape (self.singleScale.tensor 0).shape =
      [params.scales.length] := broadcastShape_single _
  have hin : Inside (Tensor.broadcastShape (params.tensor 0).shape
      (self.singleScale.tensor 0).shape) [i] := by
    rw [hshape]
    exact hi
  have hchannel : Tensor.alignIndex (params.tensor 0).shape [i] = [i] := Tensor.alignIndex_self hi
  have hsingle : Tensor.alignIndex (self.singleScale.tensor 0).shape [i] = [0] := rfl
  have hfirst : Inside [self.singleScale.scales.length] [0] :=
    ⟨⟨le_refl 0, Int.zero_lt_one⟩, trivial⟩
  have hgetChannel : (params.tensor 0).get [i] = ⟨.f32, params.scale i⟩ :=
    SymmPerChannelQuantParams.get_tensor hi
  have hgetSingle : (self.singleScale.tensor 0).get [0] = ⟨.f32, self.singleScale.scale 0⟩ :=
    SymmPerChannelQuantParams.get_tensor hfirst
  unfold Node.valueAt
  rw [biasMultiplier_denote hM, Tensor.get_broadcast hin, hchannel, hsingle, hgetChannel,
    hgetSingle]
  rfl

/-- Every channel of the multiplier is the product of the scales of input 0 and of
the channel. -/
def OperationsBase.Multiplies (self : OperationsBase) (M : Meaning Element)
    (params : SymmPerChannelQuantParams) (multiplier : Node) : Prop :=
  ∀ i, Inside [params.scales.length] [i] →
    multiplier.HasIndex M [i] ∧
      multiplier.valueAt M [i] = self.scaleOf (self.inputIndex 0) * params.scale i

/-- **The scales of the bias.**  Whatever model and operation, the bias of a
per-channel convolution is multiplied by the scales of input 0 and of its channel
exactly when operand 0 of the model has the scale of input 0, or every channel's
scale is zero. -/
theorem convolution_scalesBias_iff (hM : M.Computes conv)
    (htype : (self.getInputOperand 1).type = .tensorQuant8SymmPerChannel)
    (hparams : (self.getInputOperand 1).channelQuant = some params) {createNode : Gen Node}
    (hclass : ConvolutionNode self createNode) {node : Node}
    (hnode : (exec (answer ng) createNode nodes).outcome = .ok node) :
    (∃ bias multiplier, self.ScalesBias ng nodes node bias multiplier ∧
      self.Multiplies M params multiplier) ↔
    (self.scaleOf 0 = self.scaleOf (self.inputIndex 0) ∨
      ∀ i, Inside [params.scales.length] [i] → params.scale i = 0) := by
  obtain ⟨bias, hscales⟩ := hclass.scalesBias htype hparams hnode
  constructor
  · intro hboth
    rcases hboth with ⟨bias', multiplier, hscales', hmultiplies⟩
    obtain rfl := hscales.unique hscales'
    by_contra hfails
    rw [not_or] at hfails
    rcases hfails with ⟨hdiffer, hnonzero⟩
    apply hnonzero
    intro i hi
    have hvalue := (hmultiplies i hi).2
    rw [biasMultiplier_valueAt hM hi, mul_comm] at hvalue
    by_contra hscale
    exact hdiffer (mul_right_cancel₀ hscale hvalue)
  · intro hcondition
    refine ⟨bias, _, hscales, ?_⟩
    intro i hi
    have hindex : (self.biasMultiplier params).HasIndex M [i] := by
      unfold Node.HasIndex
      rw [shape_biasMultiplier hM]
      exact hi
    refine ⟨hindex, ?_⟩
    rw [biasMultiplier_valueAt hM hi]
    rcases hcondition with hsame | hzero
    · rw [hsame, mul_comm]
    · rw [hzero i hi, zero_mul, mul_zero]

end Multiplier

end Runs

/-! ### A second operation -/

/-- A constant of four bytes of the model. -/
def constantInt (offset : Nat) : Operand where
  type := .int32
  lifetime := .constantCopy
  location := { offset, length := 4 }

/-- One channel with the scale one. -/
def unitScale : SymmPerChannelQuantParams := ⟨[0x3f800000], 0⟩

/-- `RELU` of operand 0, whose scale is one, gives operand 7, whose scale is one half;
a convolution with scales for its channel takes one of the two. -/
def biasedConv (input : Nat) : OperationsBase where
  sModelInfo :=
    { mModel :=
        { operands :=
            [{ type := .tensorQuant8Asymm, dimensions := [1, 1, 1, 1], scale := 0x3f800000
               lifetime := .subgraphInput },
              { type := .tensorQuant8SymmPerChannel, dimensions := [1, 1, 1, 1]
                lifetime := .subgraphInput, channelQuant := some unitScale },
              { type := .tensorInt32, dimensions := [1], lifetime := .subgraphInput },
              constantInt 0,
              constantInt 4,
              constantInt 4,
              constantInt 8,
              { type := .tensorQuant8Asymm, dimensions := [1, 1, 1, 1], scale := 0x3f000000
                lifetime := .temporaryVariable },
              { type := .tensorQuant8Asymm, dimensions := [1, 1, 1, 1], scale := 0x3f800000
                lifetime := .subgraphOutput }]
          operations :=
            [{ type := .relu, inputs := [0], outputs := [7] },
              { type := .conv2d, inputs := [input, 1, 2, 3, 4, 5, 6], outputs := [8] }]
          inputIndexes := [0, 1, 2]
          outputIndexes := [8]
          operandValues := [2, 0, 0, 0, 1, 0, 0, 0, 0, 0, 0, 0] } }
  sPluginType := .cpu
  mNnapiOperationIndex := 1
  mDefaultOutputIndex := 8

/-- Operands as parameters. -/
def biasedNodes : NgraphNodes where
  mOutputAtOperandIndex index := some (.mk (.parameter index .u8 [1]) [], 0)

/-- The tensors of the parameters, of ones. -/
def onesInputs (_ : Nat) : Tensor Element := Tensor.ofFn [1] fun _ => ⟨.u8, 1⟩

theorem biasedConv_builds (input : Nat) (hinput : input = 0 ∨ input = 7) :
    ∃ node, (exec (answer (.exact onesInputs)) (Conv2d.createNode (biasedConv input))
      biasedNodes).outcome = .ok node := by
  have hstop : .stop ∉ (convUses Conv2d.cls (biasedConv input)).flatMap
      (biasedConv input).accesses := by
    rcases hinput with rfl | rfl <;> decide
  exact builds_of_follows uses_convNode hstop fun _ _ => rfl

theorem biasedConv_scalesBias :
    ∃ node, (exec (answer (.exact onesInputs)) (Conv2d.createNode (biasedConv 0))
        biasedNodes).outcome = .ok node ∧
      ∃ bias multiplier,
        (biasedConv 0).ScalesBias (.exact onesInputs) biasedNodes node bias multiplier ∧
        (biasedConv 0).Multiplies (exact onesInputs) unitScale multiplier := by
  obtain ⟨node, hnode⟩ := biasedConv_builds 0 (.inl rfl)
  have hclass : ConvolutionNode (biasedConv 0) (Conv2d.createNode (biasedConv 0)) := .conv2d
  exact ⟨node, hnode,
    (convolution_scalesBias_iff exact_computes rfl rfl hclass hnode).mpr (.inl rfl)⟩

/-- The convolution of operand 7 multiplies its bias by twice what it should. -/
theorem biasedConv_mistakes :
    ¬ ∀ (self : OperationsBase) (params : SymmPerChannelQuantParams) (createNode : Gen Node)
      (M : Meaning Element) (conv : Conversion) (ng : Ngraph) (nodes : NgraphNodes) (node : Node),
      M.Computes conv → (self.getInputOperand 1).type = .tensorQuant8SymmPerChannel →
      (self.getInputOperand 1).channelQuant = some params → ConvolutionNode self createNode →
      (exec (answer ng) createNode nodes).outcome = .ok node →
      ∃ bias multiplier, self.ScalesBias ng nodes node bias multiplier ∧
        self.Multiplies M params multiplier := by
  intro hall
  obtain ⟨node, hnode⟩ := biasedConv_builds 7 (.inr rfl)
  have hclass : ConvolutionNode (biasedConv 7) (Conv2d.createNode (biasedConv 7)) := .conv2d
  obtain ⟨bias, multiplier, hscales, hmultiplies⟩ := hall (biasedConv 7) unitScale _
    (exact onesInputs) _ _ biasedNodes node exact_computes rfl rfl hclass hnode
  obtain ⟨bias', hscales'⟩ := hclass.scalesBias rfl rfl hnode
  obtain rfl := hscales.unique hscales'
  have hfirst : Inside [unitScale.scales.length] [0] := by decide
  have hvalue := (hmultiplies 0 hfirst).2
  rw [biasMultiplier_valueAt exact_computes hfirst] at hvalue
  have hone : FloatFormat.binary32.value 0x3f800000 = 1 := by
    norm_num [FloatFormat.value, FloatFormat.binary32]
  have hhalf : FloatFormat.binary32.value 0x3f000000 = 1 / 2 := by
    norm_num [FloatFormat.value, FloatFormat.binary32]
  have hchannel : unitScale.scale 0 = 1 := hone
  have hzero : (biasedConv 7).scaleOf 0 = 1 := hone
  have hinput : (biasedConv 7).scaleOf ((biasedConv 7).inputIndex 0) = 1 / 2 := hhalf
  rw [hchannel, hzero, hinput] at hvalue
  norm_num at hvalue

end NnHal
