import NnHal.CommandPrograms
import NnHal.Hal

/-!
# The graph under construction

ngraph is outside the repository.  A node is kept as the term that built it:
the operation with its attributes and the outputs it was given.  What ngraph
computes itself (whether a constructor throws, the shape, element type and
name of a node) is the structure `Ngraph`, a parameter of every run.

`NgraphNodes` is the table the operations of one model share.  `Cmd` lists
everything an operation does to it and to ngraph, together with the events
that the safety statements are about: the constants it reads and the points
where the behaviour of the C++ is undefined.  After an undefined access the
model goes on with a default value, so that one fault does not hide another.
-/

namespace NnHal

open Command

/-- `ngraph::element::Type`; `undefined` is the default-constructed one. -/
inductive ElementType
  | undefined | boolean | f16 | f32 | i8 | i16 | i32 | i64 | u8 | u16 | u32
  deriving DecidableEq, Repr, Inhabited

/-- A number the code hands to ngraph.  Floating-point arithmetic is not
evaluated: the expression the code computes is kept, with the bits of the
constants it starts from. -/
inductive Scalar
  | int (v : Int)
  | float32 (bits : Nat)
  | float16 (bits : Nat)
  /-- the literal `mantissa * 10 ^ exponent` -/
  | decimal (mantissa exponent : Int)
  | toFloat (a : Scalar)
  | toInt (a : Scalar)
  | neg (a : Scalar)
  | mul (a b : Scalar)
  | div (a b : Scalar)
  deriving DecidableEq, Repr, Inhabited

/-- `ngraph::op::PadType`. -/
inductive PadType
  | explicit | sameUpper | valid | notset
  deriving DecidableEq, Repr, Inhabited

/-- The attributes of a convolution. -/
structure ConvAttrs where
  strides : List Nat
  padsBegin : List Int
  padsEnd : List Int
  dilations : List Nat
  autoPad : PadType
  deriving DecidableEq, Repr, Inhabited

/-- The attributes of a pooling operation. -/
structure PoolAttrs where
  strides : List Nat
  padsBegin : List Nat
  padsEnd : List Nat
  kernel : List Nat
  autoPad : PadType
  deriving DecidableEq, Repr, Inhabited

inductive CoordinateTransformMode
  | alignCorners | halfPixel | asymmetric
  deriving DecidableEq, Repr, Inhabited

inductive InterpolateMode
  | linear | nearest
  deriving DecidableEq, Repr, Inhabited

/-- `NearestMode`; the attribute's own default is `round_prefer_floor`. -/
inductive NearestMode
  | roundPreferFloor | floor | roundPreferCeil
  deriving DecidableEq, Repr, Inhabited

/-- `Interpolate::InterpolateAttrs`, as far as the driver sets it.  The shape
calculation mode stays at its default when no branch assigns it. -/
structure InterpolateAttrs where
  sizes : Bool := false
  mode : InterpolateMode
  coordinateTransformationMode : CoordinateTransformMode
  nearestMode : NearestMode := .roundPreferFloor
  deriving DecidableEq, Repr, Inhabited

/-- The ngraph operations the driver builds, with their attributes. -/
inductive NodeOp
  | parameter (operand : Nat) (type : ElementType) (shape : List Nat)
  | constant (type : ElementType) (shape : List Nat) (values : List Scalar)
  | constantUninitialized (type : ElementType) (shape : List Nat)
  | abs | exp | floor | log | negative | relu | sigmoid | sin | sqrt | tanh
  | logicalNot | hSwish
  | add | subtract | multiply | divide | maximum | minimum | power
  | equal | notEqual | greater | greaterEqual | less | lessEqual
  | logicalAnd | logicalOr
  | prelu | select
  | clamp (low high : Scalar)
  | convert (type : ElementType)
  | roundHalfToEven
  | transpose | squeeze | unsqueeze | gather
  | reshape (specialZero : Bool)
  | concat (axis : Int)
  | split (numSplits : Nat)
  | topK (axis : Int) (max : Bool) (sortValues : Bool)
  | matMul (transposeA transposeB : Bool)
  | reduceSum (keepDims : Bool) | reduceMean (keepDims : Bool)
  | reduceMax (keepDims : Bool) | reduceMin (keepDims : Bool)
  | reduceProd (keepDims : Bool) | reduceLogicalAnd (keepDims : Bool)
  | reduceLogicalOr (keepDims : Bool)
  | batchToSpace | spaceToBatch
  | depthToSpace (blockSize : Nat) | spaceToDepth (blockSize : Nat)
  | shuffleChannels (axis group : Int)
  | pad
  | stridedSlice (beginMask endMask newAxisMask shrinkAxisMask ellipsisMask : List Int)
  | mvn (normalizeVariance : Bool) (eps : Scalar)
  | convolution (attrs : ConvAttrs)
  | groupConvolution (attrs : ConvAttrs)
  | convolutionBackpropData (attrs : ConvAttrs)
  | avgPool (attrs : PoolAttrs) (excludePad : Bool)
  | maxPool (attrs : PoolAttrs)
  | interpolate (attrs : InterpolateAttrs)
  | roiAlign (height width samplingRatio : Int) (spatialScale : Scalar)
  | roiPooling (outputSize : List Nat) (spatialScale : Scalar)
  deriving DecidableEq, Repr, Inhabited

/-- An `ngraph::Node`: the operation and the outputs it was built from, each
a node and an output index. -/
inductive Node
  | mk (op : NodeOp) (args : List (Node × Nat))

/-- What the model goes on with where the C++ has a null pointer. -/
instance : Inhabited Node := ⟨.mk .relu []⟩

/-- `std::shared_ptr<ngraph::Node>`, where it can be null. -/
abbrev NodePtr := Option Node

/-- `ngraph::Output<ngraph::Node>`, other than the default one without a
node. -/
abbrev Output := Node × Nat

/-- An `Output` is built from a node as the node's default output. -/
instance : Coe Node Output := ⟨fun node => (node, 0)⟩

/-- `node->output(index)`. -/
def Node.output (node : Node) (index : Nat) : Output := (node, index)

/-- What ngraph answers. -/
structure Ngraph where
  /-- the constructor of the operation returns on these arguments -/
  accepts : NodeOp → List Output → Bool
  getShape : Node → List Nat
  getElementType : Node → ElementType
  getName : Node → String
  /-- `std::make_shared<ngraph::Function>` returns on these results and
  parameters -/
  acceptsFunction : List NodePtr → List Node → Bool

/-- An ngraph that refuses nothing. -/
def Ngraph.permissive : Ngraph where
  accepts _ _ := true
  getShape _ := []
  getElementType _ := .f32
  getName _ := ""
  acceptsFunction _ _ := true

/-- `ngraph::Function`. -/
structure NgraphFunction where
  results : List NodePtr
  parameters : List Node

/-! ## The node table -/

/-- `NgraphNodes`.  An entry of `mOutputAtOperandIndex` is `none` while it is
the default `Output`, whose node is null. -/
structure NgraphNodes where
  mOutputAtOperandIndex : Nat → Option Output := fun _ => none
  mInputParams : List Node := []
  mResultNodes : List NodePtr := []
  mNodeNames : Nat → Option String := fun _ => none

namespace NgraphNodes

/-- The entry holds a node. -/
def bound (nodes : NgraphNodes) (index : Nat) : Bool :=
  (nodes.mOutputAtOperandIndex index).isSome

/-- The operand has an entry in `mNodeNames`. -/
def named (nodes : NgraphNodes) (index : Nat) : Bool :=
  (nodes.mNodeNames index).isSome

def addInputParam (nodes : NgraphNodes) (inParam : Node) : NgraphNodes :=
  { nodes with mInputParams := nodes.mInputParams ++ [inParam] }

def setOutputAtOperandIndex (nodes : NgraphNodes) (index : Nat)
    (output : Option Output) : NgraphNodes :=
  { nodes with
    mOutputAtOperandIndex := Function.update nodes.mOutputAtOperandIndex index output }

def getOperationOutput (nodes : NgraphNodes) (index : Nat) : Option Output :=
  nodes.mOutputAtOperandIndex index

def setResultNode (nodes : NgraphNodes) (_outputIndex : Nat)
    (resultNode : NodePtr) : NgraphNodes :=
  { nodes with mResultNodes := nodes.mResultNodes ++ [resultNode] }

def setInvalidNode (nodes : NgraphNodes) (index : Nat) : NgraphNodes :=
  { nodes with mNodeNames := Function.update nodes.mNodeNames index (some "") }

/-- What `getNodeName` returns; `none` where it follows the null pointer of an entry
that is neither named nor bound. -/
def nodeName (ng : Ngraph) (nodes : NgraphNodes) (index : Nat) : Option String :=
  match nodes.mNodeNames index with
  | some name => some name
  | none => (nodes.mOutputAtOperandIndex index).map fun output => ng.getName output.1

/-- `getNodeName`: the name is asked of ngraph once and remembered.  Where a null
pointer is followed, the model goes on with the empty name. -/
def getNodeName (ng : Ngraph) (nodes : NgraphNodes) (index : Nat) :
    String × NgraphNodes :=
  match nodes.mNodeNames index with
  | some name => (name, nodes)
  | none =>
      let name := (nodes.mOutputAtOperandIndex index).elim "" fun output => ng.getName output.1
      (name, { nodes with
        mNodeNames := Function.update nodes.mNodeNames index (some name) })

/-- The loop of `removeInputParameter`: after an `erase` at `i` the entry that
moved to `i` is passed over. -/
def eraseNamed (ng : Ngraph) (name : String) : List Node → List Node
  | [] => []
  | p :: ps =>
      if ng.getName p = name then
        match ps with
        | [] => []
        | q :: qs => q :: eraseNamed ng name qs
      else p :: eraseNamed ng name ps

def removeInputParameter (ng : Ngraph) (nodes : NgraphNodes) (name : String)
    (index : Nat) : NgraphNodes :=
  let erased := { nodes with mInputParams := eraseNamed ng name nodes.mInputParams }
  if erased.mInputParams.length = nodes.mInputParams.length then nodes
  else erased.setInvalidNode index

/-- `OperationsBase::removeInputNode` on the table: the name of the operand is
asked for, then the parameter of that name is removed. -/
def removeInputNode (ng : Ngraph) (nodes : NgraphNodes) (index : Nat) : NgraphNodes :=
  let (nodeName, nodes) := nodes.getNodeName ng index
  nodes.removeInputParameter ng nodeName index

end NgraphNodes

/-! ## What an operation does -/

/-- Where the C++ has no defined behaviour, or reads what was never written. -/
inductive Fault
  /-- `mPoolInfos[poolIndex]` past the end -/
  | poolIndex (index : Nat)
  /-- a read through the null buffer of an operand that is not constant -/
  | nullBuffer (operand : Nat)
  /-- a dimension vector, or a shape the code builds, indexed past the end -/
  | dimension
  /-- an integer division by zero -/
  | divideByZero
  /-- another vector of the code indexed past the end -/
  | vectorIndex
  /-- a node pointer dereferenced that is null -/
  | nullNode
  /-- a shape or output list of ngraph indexed past the end -/
  | nodeShape
  /-- a local variable read before it is assigned -/
  | uninitialized
  deriving DecidableEq, Repr

/-- A command of graph construction. -/
inductive Cmd
  | fault (f : Fault)
  /-- `nnAssert(false)`, or a wrong member asked of a `safe_union` -/
  | abort
  /-- an exception of the standard library -/
  | throwException
  /-- the value of an operand is fetched from the model's constants -/
  | readOperand (operand : Nat)
  /-- `getInputNode` returns the null pointer for a constant -/
  | nullConstant (operand : Nat)
  | getOperationOutput (index : Nat)
  | setOutputAtOperandIndex (index : Nat) (output : Option Output)
  | setResultNode (index : Nat) (node : NodePtr)
  | addInputParam (node : Node)
  | setInvalidNode (index : Nat)
  /-- the two calls of `OperationsBase::removeInputNode` -/
  | removeInputNode (index : Nat)
  | make (op : NodeOp) (args : List Output)
  | getShape (node : Node)
  | getElementType (node : Node)

/-- The type of the answer to a command; `abort` and `throwException` have
none. -/
abbrev Cmd.Answer : Cmd → Type
  | .abort | .throwException => Empty
  | .getOperationOutput _ => Output
  | .make _ _ => Node
  | .getShape _ => List Nat
  | .getElementType _ => ElementType
  | _ => Unit

/-- A step of graph construction with a result in `α`. -/
abbrev Gen := Prog Cmd Cmd.Answer

/-- How graph construction stops early. -/
inductive Stop
  | exception | aborted
  deriving DecidableEq, Repr

/-- The environment of graph construction: ngraph and the node table.  An
unbound entry is looked up as a null pointer. -/
def answer (ng : Ngraph) :
    (c : Cmd) → NgraphNodes → Except Stop (c.Answer × NgraphNodes)
  | .fault _, nodes => .ok ((), nodes)
  | .abort, _ => .error .aborted
  | .throwException, _ => .error .exception
  | .readOperand _, nodes => .ok ((), nodes)
  | .nullConstant _, nodes => .ok ((), nodes)
  | .getOperationOutput index, nodes =>
      .ok ((nodes.getOperationOutput index).getD default, nodes)
  | .setOutputAtOperandIndex index output, nodes =>
      .ok ((), nodes.setOutputAtOperandIndex index output)
  | .setResultNode index node, nodes => .ok ((), nodes.setResultNode index node)
  | .addInputParam node, nodes => .ok ((), nodes.addInputParam node)
  | .setInvalidNode index, nodes => .ok ((), nodes.setInvalidNode index)
  | .removeInputNode index, nodes => .ok ((), nodes.removeInputNode ng index)
  | .make op args, nodes =>
      if ng.accepts op args then .ok (.mk op args, nodes) else .error .exception
  | .getShape node, nodes => .ok (ng.getShape node, nodes)
  | .getElementType node, nodes => .ok (ng.getElementType node, nodes)

/-! ### Writing programs -/

/-- The program that issues one command. -/
abbrev issue (c : Cmd) : Gen c.Answer := Prog.perform c

def fault (f : Fault) : Gen Unit := issue (.fault f)

/-- The fault happens when the condition holds. -/
def faultIf (b : Bool) (f : Fault) : Gen Unit :=
  if b then fault f else pure ()

/-- `std::make_shared` of an ngraph operation. -/
def makeShared (op : NodeOp) (args : List Output) : Gen Node :=
  issue (.make op args)

/-- The node behind a pointer that is dereferenced. -/
def deref (node : NodePtr) : Gen Node :=
  match node with
  | some n => pure n
  | none => do
      fault .nullNode
      pure default

/-- `dims[i]`. -/
def dimAt (dims : List Nat) (i : Nat) : Gen Nat :=
  match dims[i]? with
  | some d => pure d
  | none => do
      fault .dimension
      pure 0

/-- `v[i]` of a vector that holds no dimensions. -/
def elementAt {α : Type} [Inhabited α] (v : List α) (i : Nat) : Gen α :=
  match v[i]? with
  | some x => pure x
  | none => do
      fault .vectorIndex
      pure default

/-- `node->get_shape()[i]`. -/
def shapeAt (node : Node) (i : Nat) : Gen Nat := do
  let shape ← issue (.getShape node)
  match shape[i]? with
  | some d => pure d
  | none => do
      fault .nodeShape
      pure 0

/-- An integer division of the code, on the values of its types. -/
def divInt (a b : Int) : Gen Int := do
  faultIf (b = 0) .divideByZero
  pure (a.tdiv b)

/-- The value of a local variable that some path leaves unassigned. -/
def readLocal {α : Type} [Inhabited α] (x : Option α) : Gen α :=
  match x with
  | some v => pure v
  | none => do
      fault .uninitialized
      pure default

/-- `createConstNode`. -/
def createConstNode (type : ElementType) (shape : List Nat)
    (vals : List Scalar) : Gen Node :=
  makeShared (.constant type shape vals) []

end NnHal
