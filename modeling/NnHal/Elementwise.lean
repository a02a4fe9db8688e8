import NnHal.OperandAccess

/-!
# Elementwise operations

The classes that build one ngraph node from one or two inputs, the four
arithmetic ones with a fused activation, and the few that convert between
element types.  Each class is its `createNode`, its `validate` where it has
one of its own, and the list of its uses with the theorem that the program
makes exactly these.
-/

namespace NnHal

open Command

namespace OperationsBase

variable (self : OperationsBase)

/-- A class whose node has one input. -/
def unaryNode (op : NodeOp) : Gen Node := do
  let input ← self.getInputNode 0
  makeShared op [input]

/-- A class whose node has two inputs, broadcast by the NumPy rule. -/
def binaryNode (op : NodeOp) : Gen Node := do
  let input1 ← self.getInputNode 0
  let input2 ← self.getInputNode 1
  makeShared op [input1, input2]

/-- A class whose node has two inputs and a fused activation. -/
def activatedNode (op : NodeOp) : Gen Node := do
  let input1 ← self.getInputNode 0
  let input2 ← self.getInputNode 1
  let activationFn ← self.parseOperationInput .uint32 2
  let node ← makeShared op [input1, input2]
  applyActivation node (toInt32 activationFn)

end OperationsBase

/-! ## One input -/

/-- `ABS`. -/
def Abs.createNode (self : OperationsBase) : Gen Node := self.unaryNode .abs
def Exp.createNode (self : OperationsBase) : Gen Node := self.unaryNode .exp
def Floor.createNode (self : OperationsBase) : Gen Node := self.unaryNode .floor

/-- `HARD_SWISH`, an operation of ngraph's own. -/
def HardSwish.createNode (self : OperationsBase) : Gen Node := self.unaryNode .hSwish
def Log.createNode (self : OperationsBase) : Gen Node := self.unaryNode .log
def LogicalNot.createNode (self : OperationsBase) : Gen Node := self.unaryNode .logicalNot

/-- `LOGISTIC` is ngraph's `Sigmoid`. -/
def Logistic.createNode (self : OperationsBase) : Gen Node := self.unaryNode .sigmoid
def Neg.createNode (self : OperationsBase) : Gen Node := self.unaryNode .negative

/-- `RELU` has a node of its own, the bounded ones are clamps. -/
def Relu.createNode (self : OperationsBase) : Gen Node := self.unaryNode .relu
def Relu1.createNode (self : OperationsBase) : Gen Node :=
  self.unaryNode (.clamp (.int (-1)) (.int 1))
def Relu6.createNode (self : OperationsBase) : Gen Node :=
  self.unaryNode (.clamp (.int 0) (.int 6))
def SQRT.createNode (self : OperationsBase) : Gen Node := self.unaryNode .sqrt
def Sin.createNode (self : OperationsBase) : Gen Node := self.unaryNode .sin
def Tanh.createNode (self : OperationsBase) : Gen Node := self.unaryNode .tanh

/-- Each of them uses its input. -/
theorem uses_unaryNode {self : OperationsBase} {op : NodeOp} :
    Uses self (self.unaryNode op) [.node 0] :=
  .node fun _ => .quiet quiet_make

/-- `RSQRT` divides a one of the input's type by the root. -/
def RSQRT.createNode (self : OperationsBase) : Gen Node := do
  let input ← self.getInputNode 0
  let sqrtNode ← makeShared .sqrt [input]
  let constNode ←
    (if self.checkInputOperandType 0 .tensorFloat16 then
      createConstNode .f16 [1] [.decimal 1 0]
    else createConstNode .f32 [1] [.decimal 1 0])
  makeShared .divide [constNode, sqrtNode]

/-- The one is the code's own, the input is its only use. -/
theorem RSQRT.createNode_uses {self : OperationsBase} :
    Uses self (RSQRT.createNode self) [.node 0] := by
  refine .node fun _ => .make fun _ => ?_
  exact .step (quiet_ite quiet_const quiet_const) fun _ => .quiet quiet_make

/-! ## Two inputs -/

/-- The comparisons. -/
def Equal.createNode (self : OperationsBase) : Gen Node := self.binaryNode .equal
def Greater.createNode (self : OperationsBase) : Gen Node := self.binaryNode .greater
def GreaterEqual.createNode (self : OperationsBase) : Gen Node :=
  self.binaryNode .greaterEqual
def Less.createNode (self : OperationsBase) : Gen Node := self.binaryNode .less
def LessEqual.createNode (self : OperationsBase) : Gen Node := self.binaryNode .lessEqual
def NotEqual.createNode (self : OperationsBase) : Gen Node := self.binaryNode .notEqual

/-- The two connectives of truth values. -/
def LogicalAnd.createNode (self : OperationsBase) : Gen Node := self.binaryNode .logicalAnd
def LogicalOr.createNode (self : OperationsBase) : Gen Node := self.binaryNode .logicalOr

/-- The larger entry, and the smaller one. -/
def Maximum.createNode (self : OperationsBase) : Gen Node := self.binaryNode .maximum
def Minimum.createNode (self : OperationsBase) : Gen Node := self.binaryNode .minimum

/-- `POW`: the second input is the exponent. -/
def Pow.createNode (self : OperationsBase) : Gen Node := self.binaryNode .power

/-- `PRELU`: the second input is alpha. -/
def PRelu.createNode (self : OperationsBase) : Gen Node := self.binaryNode .prelu

/-- Each of them uses both inputs. -/
theorem uses_binaryNode {self : OperationsBase} {op : NodeOp} :
    Uses self (self.binaryNode op) [.node 0, .node 1] :=
  .node fun _ => .node fun _ => .quiet quiet_make

/-- `PRelu::validate`: no dimension of alpha exceeds that of the base when the
ranks agree, and the rank of alpha is not the larger one. -/
def PRelu.validate (self : OperationsBase) : Gen Bool :=
  let baseDims := self.getInputOperandDimensions 0
  let alphaDims := self.getInputOperandDimensions 1
  if alphaDims.length > baseDims.length then pure false
  else if alphaDims.length = baseDims.length then
    pure ((List.zipWith (fun alpha base => decide (alpha ≤ base)) alphaDims baseDims).all id)
  else pure true

/-! ## Two inputs and an activation -/

/-- `ADD`, on a device other than VPU. -/
def Add.createNode (self : OperationsBase) : Gen Node := self.activatedNode .add

/-- The three others do not look at the device. -/
def Sub.createNode (self : OperationsBase) : Gen Node := self.activatedNode .subtract
def Mul.createNode (self : OperationsBase) : Gen Node := self.activatedNode .multiply
def Div.createNode (self : OperationsBase) : Gen Node := self.activatedNode .divide

/-- The two inputs and the code of the activation. -/
def activatedUses : List Use := [.node 0, .node 1, .scalar .uint32 2]

/-- The activation is read before the node is made. -/
theorem uses_activatedNode {self : OperationsBase} {op : NodeOp} :
    Uses self (self.activatedNode op) activatedUses :=
  .node fun _ => .node fun _ => .scalar fun _ => .make fun _ => .quiet quiet_applyActivation

/-- `Add::validate`, alone of the four, asks that the activation is
constant. -/
def Add.validate (self : OperationsBase) : Gen Bool :=
  pure (self.isInputConst 2)

/-- `Add::createNodeForPlugin`: on a VPU an uninitialized constant of the
input's shape, transposed, is added to the first input. -/
def Add.createNodeForPlugin (self : OperationsBase) : Gen Node :=
  if self.sPluginType = .vpu then do
    let input ← issue (.getOperationOutput (self.inputIndex 0))
    let shape ← issue (.getShape input.1)
    let constantOp ← makeShared (.constantUninitialized .f32 shape) []
    let transposedOp ← transpose .nhwcNchw constantOp
    makeShared .add [input, transposedOp]
  else Add.createNode self

/-- On a VPU only the entry of the first input is looked up. -/
def Add.uses (self : OperationsBase) : List Use :=
  if self.sPluginType = .vpu then [.rawOutput 0] else activatedUses

/-- The uses follow the device. -/
theorem Add.createNodeForPlugin_uses {self : OperationsBase} :
    Uses self (Add.createNodeForPlugin self) (Add.uses self) := by
  refine .ite (fun _ => ?_) fun _ => uses_activatedNode
  refine .rawOutput fun _ => .step quiet_getShape fun _ => .make fun _ => ?_
  exact .step quiet_transpose fun _ => .quiet quiet_make

/-! ## The remaining ones -/

/-- `SELECT`: the first input chooses between the others. -/
def Select.createNode (self : OperationsBase) : Gen Node := do
  let input1 ← self.getInputNode 0
  let input2 ← self.getInputNode 1
  let input3 ← self.getInputNode 2
  makeShared .select [input1, input2, input3]

/-- All three inputs. -/
def Select.uses : List Use := [.node 0, .node 1, .node 2]

/-- They are fetched in their order. -/
theorem Select.createNode_uses {self : OperationsBase} :
    Uses self (Select.createNode self) Select.uses :=
  .node fun _ => .node fun _ => .node fun _ => .quiet quiet_make

/-- `DEQUANTIZE`: the input is fetched as it is stored, and dequantized to the type of the
output. -/
def Dequantize.createNode (self : OperationsBase) : Gen Node := do
  let input ← self.getInputNode 0 false
  if self.checkOutputOperandType 0 .tensorFloat16 then
    self.dequantizeNode input (self.inputIndex 0) .f16
  else self.dequantizeNode input (self.inputIndex 0) .f32

/-- The input as it is stored, then its scale and zero point. -/
def Dequantize.uses (self : OperationsBase) : List Use :=
  [.node 0 false, .dequantize (self.inputIndex 0)]

/-- The uses are the same for both types. -/
theorem Dequantize.createNode_uses {self : OperationsBase} :
    Uses self (Dequantize.createNode self) (Dequantize.uses self) := by
  refine .node fun _ => ?_
  split <;> exact .dequantized

/-- `Quantize::createNode`, which binds the output itself. -/
def Quantize.createNode (self : OperationsBase) : Gen Unit := do
  let input ← self.getInputNode 0
  let outputNode ← self.quantizeNode input (self.outputIndex 0) .u8
  self.setOperationOutput (self.outputIndex 0) (some outputNode)

/-- The input and the output it binds. -/
def Quantize.uses (self : OperationsBase) : List Use :=
  [.node 0, .set (self.outputIndex 0)]

/-- Quantizing itself uses nothing of the model's constants. -/
theorem Quantize.createNode_uses {self : OperationsBase} :
    Uses self (Quantize.createNode self) (Quantize.uses self) :=
  .node fun _ => .step quiet_quantizeNode fun _ => .bound

/-- A conversion of `Cast` to a quantized type: the input is clamped to the
range of the type on the way. -/
def Cast.clamped (input : Node) (low high : Int) (elementType : ElementType) :
    Gen Node := do
  let convertInput ← makeShared (.convert .i32) [input]
  let input ← makeShared (.clamp (.int low) (.int high)) [convertInput]
  makeShared (.convert elementType) [input]

/-- The conversion `Cast` makes for the type of its output operand; a type
that no branch names leaves `elementType` undefined. -/
def Cast.convert (self : OperationsBase) (input : Node) : Gen Node :=
  match (self.getOutputOperand 0).type with
  | .tensorFloat32 => makeShared (.convert .f32) [input]
  | .tensorFloat16 => makeShared (.convert .f16) [input]
  | .tensorInt32 => makeShared (.convert .i32) [input]
  | .tensorQuant8Asymm => Cast.clamped input 0 255 .u8
  | .tensorQuant8AsymmSigned | .tensorQuant8Symm => Cast.clamped input (-128) 127 .i8
  | .tensorQuant16Asymm => Cast.clamped input 0 65535 .u16
  | .tensorQuant16Symm => Cast.clamped input (-32768) 32767 .i16
  | _ => makeShared (.convert .undefined) [input]

/-- `Cast::createNode`.  The two types compared are those of the operations at
the positions of the operands, not those of the operands. -/
def Cast.createNode (self : OperationsBase) : Gen Unit := do
  let input ← self.getInputNode 0 false
  let inputType ← self.sModelInfo.getOperationType (self.inputIndex 0)
  let outputType ← self.sModelInfo.getOperationType (self.outputIndex 0)
  let outputNode ←
    (if inputType = outputType then pure input else Cast.convert self input)
  self.setOperationOutput (self.outputIndex 0) (some outputNode)

/-- The input as it is stored, and the output. -/
def Cast.uses (self : OperationsBase) : List Use :=
  [.node 0 false, .set (self.outputIndex 0)]

/-- The two types are no use, and neither is a conversion. -/
theorem Cast.createNode_uses {self : OperationsBase} :
    Uses self (Cast.createNode self) (Cast.uses self) := by
  have hclamped : ∀ input low high type, Quiet Cmd.access (Cast.clamped input low high type) :=
    fun _ _ _ _ => quiet_make.bind fun _ => quiet_make.bind fun _ => quiet_make
  refine .node fun input => .step quiet_getOperationType fun _ =>
    .step quiet_getOperationType fun _ => .step (quiet_ite (quiet_pure _) ?_) fun _ => .bound
  unfold Cast.convert
  split <;> first | exact quiet_make | exact hclamped _ _ _ _

end NnHal
