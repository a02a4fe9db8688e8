import NnHal.Recurrent

/-!
# The LSTM cell

`LSTM::createNode` first decides from the omitted and the zero-sized inputs
which variant of the cell it is given: coupled input and forget gates,
peephole connections, a projection, layer normalisation.  It then fetches the
nodes that variant needs, builds the gates and binds four outputs.
-/

namespace NnHal

namespace LSTM

open Command

variable {self : OperationsBase}

def validate (self : OperationsBase) : Gen Bool :=
  if self.inputsSize ≠ 23 ∧ self.inputsSize ≠ 27 then pure false
  else pure (self.outputsSize = 4)

/-! ## The variant of the cell -/

/-- The flags of `createNode`. -/
structure Modes where
  isCIFGenabled : Bool
  isCifgDimsEmpty : Bool
  isPeepholeUsed : Bool
  isProjectionUsed : Bool
  isLayerNormUsed : Bool
  deriving DecidableEq, Repr

/-- `LSTM::isValidInputTensor` looks at the first dimension only. -/
def isValidInputTensor (self : OperationsBase) (inputIndex : Nat) : Bool :=
  ¬ self.isZeroSizedInput inputIndex

def allOmitted (self : OperationsBase) (inputs : List Nat) : Bool :=
  inputs.all fun i => self.isOmittedInput i

def allValid (self : OperationsBase) (inputs : List Nat) : Bool :=
  inputs.all fun i => isValidInputTensor self i

/-- The gates are coupled when the weights of the input gate are missing. -/
def coupledByWeights (self : OperationsBase) : Bool :=
  allOmitted self [1, 5, 12] || !allValid self [1, 5, 12]

/-- They are coupled as well when only its peephole weights are. -/
def coupledByPeephole (self : OperationsBase) : Bool :=
  !allOmitted self [9, 10, 11] && !coupledByWeights self && !isValidInputTensor self 9 &&
    allValid self [10, 11]

def modes (self : OperationsBase) : Modes :=
  let isCIFGenabled := coupledByWeights self || coupledByPeephole self
  { isCIFGenabled
    isCifgDimsEmpty := !coupledByPeephole self
    isPeepholeUsed := !allOmitted self [9, 10, 11] &&
      allValid self (if isCIFGenabled then [10, 11] else [9, 10, 11])
    isProjectionUsed := !self.isOmittedInput 16 && isValidInputTensor self 16
    isLayerNormUsed := self.inputsSize = 27 && !allOmitted self [23, 24, 25, 26] &&
      allValid self (if isCIFGenabled then [24, 25, 26] else [23, 24, 25, 26]) }

/-! ## The inputs -/

/-- One node for each gate; the input gate has none where it is coupled. -/
structure GateNodes where
  input : NodePtr
  forget : Node
  cell : Node
  output : Node

/-- The node of the input gate at an input.  Where coupling comes from the
peephole weights, the parameter of the input is removed instead. -/
def inputGateNode (self : OperationsBase) (m : Modes) (index : Nat) : Gen NodePtr :=
  if m.isCIFGenabled then do
    (if m.isCifgDimsEmpty then pure () else self.removeInputNode index)
    pure none
  else do
    let node ← self.getInputNode index
    pure (some node)

/-- The nodes at four consecutive inputs. -/
def gateNodes (self : OperationsBase) (m : Modes) (index : Nat) : Gen GateNodes := do
  let input ← inputGateNode self m index
  let forget ← self.getInputNode (index + 1)
  let cell ← self.getInputNode (index + 2)
  let output ← self.getInputNode (index + 3)
  pure { input, forget, cell, output }

/-- The weights from the cell to the gates, zero where there are none. -/
structure PeepholeNodes where
  cell2input_weights : Node
  cell2forget_weights : Node
  cell2output_weights : Node

def peepholeNodes (self : OperationsBase) (m : Modes) (elementType : ElementType)
    (num_units : Nat) : Gen PeepholeNodes :=
  if m.isPeepholeUsed then do
    let cell2input_weights ←
      (if m.isCIFGenabled then createConstNode elementType [num_units] [.int 0]
      else self.getInputNode 9)
    let cell2forget_weights ← self.getInputNode 10
    let cell2output_weights ← self.getInputNode 11
    pure { cell2input_weights, cell2forget_weights, cell2output_weights }
  else do
    let cell2input_weights ← createConstNode elementType [num_units] [.int 0]
    let cell2forget_weights ← createConstNode elementType [num_units] [.int 0]
    let cell2output_weights ← createConstNode elementType [num_units] [.int 0]
    pure { cell2input_weights, cell2forget_weights, cell2output_weights }

/-- The weights and the bias of the projection, where it is used. -/
def projectionNodes (self : OperationsBase) (m : Modes) (elementType : ElementType)
    (output_size : Nat) : Gen (Option (Node × Node)) :=
  if m.isProjectionUsed then do
    let projection_weights ← self.getInputNode 16
    let projection_bias ←
      (if isValidInputTensor self 17 then self.getInputNode 17
      else createConstNode elementType [output_size] [.int 0])
    pure (some (projection_weights, projection_bias))
  else pure none

/-- The type the clipping bounds are read as. -/
def clippingType (self : OperationsBase) : CType :=
  if self.checkInputOperandType 0 .tensorFloat16 then .float16 else .float32

/-- The clipping bound of the projection, read only where there is one. -/
def projectionClipping (self : OperationsBase) (m : Modes) : Gen Int :=
  if m.isProjectionUsed then self.parseOperationInput (clippingType self) 22 else pure 0

/-- The weights of the layer normalisation. -/
def layerNormNodes (self : OperationsBase) (m : Modes) : Gen (Option GateNodes) :=
  if m.isLayerNormUsed then do
    let input : NodePtr ←
      (if m.isCIFGenabled then pure none else do
        let node ← self.getInputNode 23
        pure (some node))
    let forget ← self.getInputNode 24
    let cell ← self.getInputNode 25
    let output ← self.getInputNode 26
    pure (some { input, forget, cell, output })
  else pure none

/-! ## The arithmetic -/

def add (lhs rhs : Node) : Gen Node := makeShared .add [lhs, rhs]

def sub (lhs rhs : Node) : Gen Node := makeShared .subtract [lhs, rhs]

def mul (lhs rhs : Node) : Gen Node := makeShared .multiply [lhs, rhs]

def matMul (lhs rhs : Node) (transpose_lhs transpose_rhs : Bool) : Gen Node :=
  makeShared (.matMul transpose_lhs transpose_rhs) [lhs, rhs]

/-- The bits of a clipping bound stand for zero, of either sign. -/
def clipsNothing (T : CType) (m_clip : Int) : Bool :=
  m_clip % (if T = .float16 then 2 ^ 15 else 2 ^ 31) = 0

def clip (T : CType) (data : Node) (m_clip : Int) : Gen Node :=
  if clipsNothing T m_clip then pure data
  else makeShared (.clamp (.neg (T.scalar m_clip)) (T.scalar m_clip)) [data]

/-- `LSTM::applyActivation`, with codes of its own. -/
def applyActivation (arg : Node) (activationFn : Int) : Gen Node :=
  if activationFn = 1 then makeShared .relu [arg]
  else if activationFn = 3 then makeShared (.clamp (.int 0) (.int 6)) [arg]
  else if activationFn = 4 then makeShared .tanh [arg]
  else if activationFn = 6 then makeShared .sigmoid [arg]
  else makeShared .tanh [arg]

def LayerNorm (input normalizedweights bias : Node) : Gen Node := do
  let normalizationConstant ← createConstNode .f32 [] [.decimal 1 (-8)]
  let axis ← makeShared (.constant .i32 [] [.int (-1)]) []
  let mean ← makeShared (.reduceMean true) [input, axis]
  let diff ← sub input mean
  let multiply ← mul diff diff
  let var ← makeShared (.reduceMean true) [multiply, axis]
  let add_var ← add var normalizationConstant
  let sqrt ← makeShared .sqrt [add_var]
  let stddev_inv ← makeShared .divide [diff, sqrt]
  let mul_norm_weights ← mul stddev_inv normalizedweights
  add mul_norm_weights bias

/-- A gate before its activation: normalised, or with the bias only. -/
def gate (x : Node) (normalizedweights : NodePtr) (bias : Node) (isLayerNormUsed : Bool) :
    Gen Node :=
  if isLayerNormUsed then do
    let weights ← deref normalizedweights
    LayerNorm x weights bias
  else add x bias

/-- `x * W + h * R`. -/
def gateSum (x W h R : Node) : Gen Node := do
  let x_W ← matMul x W false true
  let h_R ← matMul h R false true
  add x_W h_R

/-- `x * W + h * R + w (.) c`. -/
def peepholeSum (x W h R w c : Node) : Gen Node := do
  let sum ← gateSum x W h R
  let w_c ← mul w c
  add sum w_c

/-- A placeholder for the scratch buffer: zeros in the shape of the input
gate, once for each gate. -/
def scratchNode (elementType : ElementType) (i_t : Node) (gates : Nat) : Gen Node := do
  let shape ← issue (.getShape i_t)
  let zeros ← createConstNode elementType shape [.decimal 0 0]
  let scratchBuffer ← makeShared .multiply [zeros, i_t]
  makeShared (.concat 1) (List.replicate gates (scratchBuffer, 0))

/-- What `createNode` has fetched. -/
structure Cell where
  modes : Modes
  clipping : CType
  elementType : ElementType
  inputNode : Node
  inputWeights : GateNodes
  recurrentWeights : GateNodes
  peephole : PeepholeNodes
  biases : GateNodes
  projection : Option (Node × Node)
  initial_hidden_state : Node
  initial_cell_state : Node
  activationFn : Int
  cell_state_clipping : Int
  proj_clipping : Int
  layerNorm : Option GateNodes

/-- The sum of the input gate, where the gates are not coupled. -/
def inputSum (c : Cell) : Gen NodePtr :=
  if c.modes.isCIFGenabled then pure none else do
    let W ← deref c.inputWeights.input
    let R ← deref c.recurrentWeights.input
    let i_t ← peepholeSum c.inputNode W c.initial_hidden_state R c.peephole.cell2input_weights
      c.initial_cell_state
    pure (some i_t)

/-- The input gate and the scratch buffer. -/
def inputGate (c : Cell) (i_t : NodePtr) (f_t : Node) : Gen (Node × Node) :=
  if c.modes.isCIFGenabled then do
    let shape ← issue (.getShape f_t)
    let constNode ← createConstNode c.elementType shape [.decimal 1 0]
    let i_t ← sub constNode f_t
    let scratchBuffer ← scratchNode c.elementType i_t 3
    pure (i_t, scratchBuffer)
  else do
    let i_t ← deref i_t
    let bias ← deref c.biases.input
    let i_t ← gate i_t (c.layerNorm.bind (·.input)) bias c.modes.isLayerNormUsed
    let i_t ← applyActivation i_t 6
    let scratchBuffer ← scratchNode c.elementType i_t 4
    pure (i_t, scratchBuffer)

/-- The output of the cell, projected where there is a projection. -/
def hiddenState (c : Cell) (o_t C : Node) : Gen Node :=
  match c.projection with
  | some (projection_weights, projection_bias) => do
      let g ← applyActivation C c.activationFn
      let dotProd ← mul o_t g
      let projWeightsProduct ← matMul projection_weights dotProd false true
      let transposed ← transpose .ncCn projWeightsProduct
      let projBiasAdd ← add transposed projection_bias
      clip c.clipping projBiasAdd c.proj_clipping
  | none => do
      let g ← applyActivation C c.activationFn
      mul o_t g

/-- The scratch buffer, the hidden state and the cell state. -/
def cellOutputs (c : Cell) : Gen (Node × Node × Node) := do
  let x := c.inputNode
  let h := c.initial_hidden_state
  let i_t ← inputSum c
  let f_t ← peepholeSum x c.inputWeights.forget h c.recurrentWeights.forget
    c.peephole.cell2forget_weights c.initial_cell_state
  let c_t ← gateSum x c.inputWeights.cell h c.recurrentWeights.cell
  let o_t ← gateSum x c.inputWeights.output h c.recurrentWeights.output
  let f_t ← gate f_t (c.layerNorm.map (·.forget)) c.biases.forget c.modes.isLayerNormUsed
  let f_t ← applyActivation f_t 6
  let (i_t, scratchBuffer) ← inputGate c i_t f_t
  let c_t ← gate c_t (c.layerNorm.map (·.cell)) c.biases.cell c.modes.isLayerNormUsed
  let c_t ← applyActivation c_t c.activationFn
  let f_c ← mul f_t c.initial_cell_state
  let i_c ← mul i_t c_t
  let C ← add f_c i_c
  let C ← clip c.clipping C c.cell_state_clipping
  let w_C ← mul c.peephole.cell2output_weights C
  let o_t ← add o_t w_C
  let o_t ← gate o_t (c.layerNorm.map (·.output)) c.biases.output c.modes.isLayerNormUsed
  let o_t ← applyActivation o_t 6
  let H ← hiddenState c o_t C
  pure (scratchBuffer, H, C)

def createNode (self : OperationsBase) : Gen Unit := do
  let m := modes self
  let num_units ← dimAt (self.getInputOperandDimensions 19) 1
  let output_size ← dimAt (self.getInputOperandDimensions 18) 1
  let inputNode ← self.getInputNode 0
  let elementType ← issue (.getElementType inputNode)
  let inputWeights ← gateNodes self m 1
  let recurrentWeights ← gateNodes self m 5
  let peephole ← peepholeNodes self m elementType num_units
  let biases ← gateNodes self m 12
  let projection ← projectionNodes self m elementType output_size
  let initial_hidden_state ← self.getInputNode 18
  let initial_cell_state ← self.getInputNode 19
  let activationFn ← self.parseOperationInput .uint32 20
  let cell_state_clipping ← self.parseOperationInput (clippingType self) 21
  let proj_clipping ← projectionClipping self m
  let layerNorm ← layerNormNodes self m
  let (scratchBuffer, H, C) ← cellOutputs
    { modes := m, clipping := clippingType self, elementType, inputNode, inputWeights
      recurrentWeights, peephole, biases, projection, initial_hidden_state
      initial_cell_state, activationFn := toInt32 activationFn, cell_state_clipping
      proj_clipping, layerNorm }
  self.setOperationOutput (self.outputIndex 0) (some scratchBuffer)
  self.setOperationOutput (self.outputIndex 1) (some H)
  self.setOperationOutput (self.outputIndex 2) (some C)
  self.setOperationOutput (self.outputIndex 3) (some H)

/-! ## The uses -/

def inputGateUses (m : Modes) (index : Nat) : List Use :=
  if m.isCIFGenabled then (if m.isCifgDimsEmpty then [] else [.remove index])
  else [.node index]

def gateUses (m : Modes) (index : Nat) : List Use :=
  inputGateUses m index ++ [.node (index + 1), .node (index + 2), .node (index + 3)]

def peepholeUses (m : Modes) : List Use :=
  if m.isPeepholeUsed then
    (if m.isCIFGenabled then [] else [.node 9]) ++ [.node 10, .node 11]
  else []

def projectionUses (self : OperationsBase) (m : Modes) : List Use :=
  if m.isProjectionUsed then
    .node 16 :: (if isValidInputTensor self 17 then [.node 17] else [])
  else []

def projectionClippingUses (self : OperationsBase) (m : Modes) : List Use :=
  if m.isProjectionUsed then [.scalar (clippingType self) 22] else []

def layerNormUses (m : Modes) : List Use :=
  if m.isLayerNormUsed then
    (if m.isCIFGenabled then [] else [.node 23]) ++ [.node 24, .node 25, .node 26]
  else []

def outputUses (self : OperationsBase) : List Use :=
  [.set (self.outputIndex 0), .set (self.outputIndex 1), .set (self.outputIndex 2),
    .set (self.outputIndex 3)]

def uses (self : OperationsBase) : List Use :=
  let m := modes self
  .node 0 :: (gateUses m 1 ++ (gateUses m 5 ++ (peepholeUses m ++ (gateUses m 12 ++
    (projectionUses self m ++ (.node 18 :: .node 19 :: .scalar .uint32 20 ::
      .scalar (clippingType self) 21 :: (projectionClippingUses self m ++
        (layerNormUses m ++ outputUses self))))))))

theorem quiet_applyActivation {arg : Node} {activationFn : Int} :
    Quiet Cmd.access (applyActivation arg activationFn) := by
  unfold applyActivation
  refine quiet_ite quiet_make (quiet_ite quiet_make (quiet_ite quiet_make ?_))
  exact quiet_ite quiet_make quiet_make

theorem quiet_clip {T : CType} {data : Node} {m_clip : Int} :
    Quiet Cmd.access (clip T data m_clip) :=
  quiet_ite (quiet_pure _) quiet_make

theorem quiet_LayerNorm {x weights bias : Node} :
    Quiet Cmd.access (LayerNorm x weights bias) := by
  refine quiet_const.bind fun _ => quiet_make.bind fun _ => quiet_make.bind fun _ => ?_
  refine quiet_make.bind fun _ => quiet_make.bind fun _ => quiet_make.bind fun _ => ?_
  refine quiet_make.bind fun _ => quiet_make.bind fun _ => quiet_make.bind fun _ => ?_
  exact quiet_make.bind fun _ => quiet_make

theorem quiet_gate {x bias : Node} {weights : NodePtr} {isLayerNormUsed : Bool} :
    Quiet Cmd.access (gate x weights bias isLayerNormUsed) :=
  quiet_ite (quiet_deref.bind fun _ => quiet_LayerNorm) quiet_make

theorem quiet_gateSum {x W h R : Node} : Quiet Cmd.access (gateSum x W h R) :=
  quiet_make.bind fun _ => quiet_make.bind fun _ => quiet_make

theorem quiet_peepholeSum {x W h R w c : Node} :
    Quiet Cmd.access (peepholeSum x W h R w c) :=
  quiet_gateSum.bind fun _ => quiet_make.bind fun _ => quiet_make

theorem quiet_scratchNode {elementType : ElementType} {i_t : Node} {gates : Nat} :
    Quiet Cmd.access (scratchNode elementType i_t gates) :=
  quiet_getShape.bind fun _ => quiet_const.bind fun _ => quiet_make.bind fun _ => quiet_make

theorem quiet_inputSum {c : Cell} : Quiet Cmd.access (inputSum c) := by
  refine quiet_ite (quiet_pure _) (quiet_deref.bind fun _ => quiet_deref.bind fun _ => ?_)
  exact quiet_peepholeSum.bind fun _ => quiet_pure _

theorem quiet_inputGate {c : Cell} {i_t : NodePtr} {f_t : Node} :
    Quiet Cmd.access (inputGate c i_t f_t) := by
  refine quiet_ite ?_ ?_
  · refine quiet_getShape.bind fun _ => quiet_const.bind fun _ => quiet_make.bind fun _ => ?_
    exact quiet_scratchNode.bind fun _ => quiet_pure _
  · refine quiet_deref.bind fun _ => quiet_deref.bind fun _ => quiet_gate.bind fun _ => ?_
    exact quiet_applyActivation.bind fun _ => quiet_scratchNode.bind fun _ => quiet_pure _

theorem quiet_hiddenState {c : Cell} {o_t C : Node} :
    Quiet Cmd.access (hiddenState c o_t C) := by
  unfold hiddenState
  cases c.projection with
  | none => exact quiet_applyActivation.bind fun _ => quiet_make
  | some projection =>
      refine quiet_applyActivation.bind fun _ => quiet_make.bind fun _ => ?_
      refine quiet_make.bind fun _ => quiet_transpose.bind fun _ => ?_
      exact quiet_make.bind fun _ => quiet_clip

theorem quiet_cellOutputs {c : Cell} : Quiet Cmd.access (cellOutputs c) := by
  refine quiet_inputSum.bind fun _ => quiet_peepholeSum.bind fun _ => ?_
  refine quiet_gateSum.bind fun _ => quiet_gateSum.bind fun _ => ?_
  refine quiet_gate.bind fun _ => quiet_applyActivation.bind fun _ => ?_
  refine quiet_inputGate.bind fun _ => quiet_gate.bind fun _ => ?_
  refine quiet_applyActivation.bind fun _ => quiet_make.bind fun _ => ?_
  refine quiet_make.bind fun _ => quiet_make.bind fun _ => quiet_clip.bind fun _ => ?_
  refine quiet_make.bind fun _ => quiet_make.bind fun _ => quiet_gate.bind fun _ => ?_
  exact quiet_applyActivation.bind fun _ => quiet_hiddenState.bind fun _ => quiet_pure _

theorem inputGateNode_uses {m : Modes} {index : Nat} :
    Uses self (inputGateNode self m index) (inputGateUses m index) := by
  refine .ite (fun _ => ?_) fun _ => .node fun _ => .pure _
  exact Follows.bind_quiet (Uses.ite (fun _ => .pure _) fun _ => .removed) fun _ => quiet_pure _

theorem gateNodes_uses {m : Modes} {index : Nat} :
    Uses self (gateNodes self m index) (gateUses m index) :=
  inputGateNode_uses.bind fun _ => .node fun _ => .node fun _ => .node fun _ => .pure _

theorem peepholeNodes_uses {m : Modes} {elementType : ElementType} {num_units : Nat} :
    Uses self (peepholeNodes self m elementType num_units) (peepholeUses m) := by
  refine .ite (fun _ => .bind (.ite (fun _ => .quiet quiet_const) fun _ => ?_) fun _ => ?_)
    fun _ => .const fun _ => .const fun _ => .const fun _ => .pure _
  · exact uses_getInputNode
  · exact .node fun _ => .node fun _ => .pure _

theorem projectionNodes_uses {m : Modes} {elementType : ElementType} {output_size : Nat} :
    Uses self (projectionNodes self m elementType output_size) (projectionUses self m) := by
  refine .ite (fun _ => .node fun _ => ?_) fun _ => .pure _
  exact Follows.bind_quiet (Uses.ite (fun _ => uses_getInputNode) fun _ => .quiet quiet_const)
    fun _ => quiet_pure _

theorem layerNormNodes_uses {m : Modes} :
    Uses self (layerNormNodes self m) (layerNormUses m) := by
  refine .ite (fun _ => .bind (.ite (fun _ => .pure _) fun _ => ?_) fun _ => ?_) fun _ => .pure _
  · exact .node fun _ => .pure _
  · exact .node fun _ => .node fun _ => .node fun _ => .pure _

theorem createNode_uses : Uses self (createNode self) (uses self) := by
  refine .step quiet_dimAt fun _ => .step quiet_dimAt fun _ => .node fun _ => ?_
  refine .step quiet_getElementType fun _ => gateNodes_uses.bind fun _ => ?_
  refine gateNodes_uses.bind fun _ => peepholeNodes_uses.bind fun _ => ?_
  refine gateNodes_uses.bind fun _ => projectionNodes_uses.bind fun _ => ?_
  refine .node fun _ => .node fun _ => .scalar fun _ => .scalar fun _ => ?_
  refine .bind (.ite (fun _ => uses_parseOperationInput) fun _ => .pure _) fun _ => ?_
  refine layerNormNodes_uses.bind fun _ => .step quiet_cellOutputs fun _ => ?_
  exact .set fun _ => .set fun _ => .set fun _ => .bound

end LSTM

end NnHal
