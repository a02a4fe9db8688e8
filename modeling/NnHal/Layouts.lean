import NnHal.NnapiConvolutions
import NnHal.OperationsFactory

/-!
# Layouts

An operation with a layout flag computes the same in both layouts.  Two runs of
`createNode` are compared: the first is told NHWC, the second NCHW, the input
of the second is the transposed input of the first, and everything else they
are given is the same.  They read the same parameters and put the same nodes
together, the first one between its two transpositions.
-/

namespace NnHal

open Command Tensors

/-! ## The operations -/

/-- The operations with a layout flag. -/
inductive LayoutOperation
  | conv2d | depthwiseConv2d | groupedConv2d | transposeConv2d
  | averagePool2d | maxPool2d | l2Pool2d
  | resizeBilinear | resizeNearestNeighbor
  | depthToSpace | spaceToDepth | batchToSpaceNd | spaceToBatchNd
  deriving DecidableEq, Repr

namespace OperationsBase

variable (self : OperationsBase)

/-- The first optional input of a signature with this many required ones. -/
def firstOptional (required : Nat) : Option Nat :=
  if required < self.inputsSize then some required else none

/-- The last input of an operation with one of these numbers of inputs. -/
def lastInput (counts : List Nat) : Option Nat :=
  if self.inputsSize ∈ counts then some (self.inputsSize - 1) else none

/-- The layout flag of a convolution follows its required inputs. -/
def convFlag (cls : ConvClass) : Option Nat :=
  if self.convExplicit cls then self.firstOptional cls.explicitMin
  else if self.convImplicit cls then self.firstOptional cls.implicitMin
  else none

end OperationsBase

namespace LayoutOperation

def type : LayoutOperation → OperationType
  | conv2d => .conv2d
  | depthwiseConv2d => .depthwiseConv2d
  | groupedConv2d => .groupedConv2d
  | transposeConv2d => .transposeConv2d
  | averagePool2d => .averagePool2d
  | maxPool2d => .maxPool2d
  | l2Pool2d => .l2Pool2d
  | resizeBilinear => .resizeBilinear
  | resizeNearestNeighbor => .resizeNearestNeighbor
  | depthToSpace => .depthToSpace
  | spaceToDepth => .spaceToDepth
  | batchToSpaceNd => .batchToSpaceNd
  | spaceToBatchNd => .spaceToBatchNd

def createNode : LayoutOperation → OperationsBase → Gen Node
  | conv2d => Conv2d.createNode
  | depthwiseConv2d => DepthwiseConv2d.createNode
  | groupedConv2d => GroupedConv2d.createNode
  | transposeConv2d => TransposeConv2D.createNode
  | averagePool2d => AveragePool2D.createNode
  | maxPool2d => MaxPool2d.createNode
  | l2Pool2d => L2Pooling2D.createNode
  | resizeBilinear => ResizeBilinear.createNode
  | resizeNearestNeighbor => ResizeNearestNeighbor.createNode
  | depthToSpace => DepthToSpace.createNode
  | spaceToDepth => SpaceToDepth.createNode
  | batchToSpaceNd => BatchToSpace.createNode
  | spaceToBatchNd => SpaceToBatch.createNode

/-- These are the classes the factory makes for their types. -/
theorem getOperation_type (op : LayoutOperation) :
    ∃ (us : OperationsBase → List Use)
      (h : ∀ self, Uses self (op.createNode self) (us self)) (validate : OperationsBase → Gen Bool),
      OperationsFactory.getOperation op.type =
        some (OperationClass.ofNode op.createNode h validate) := by
  cases op <;> exact ⟨_, _, _, rfl⟩

/-- The input that holds the layout flag, where the signature has it. -/
def flag (op : LayoutOperation) (self : OperationsBase) : Option Nat :=
  match op with
  | conv2d => self.convFlag Conv2d.cls
  | depthwiseConv2d => self.convFlag DepthwiseConv2d.cls
  | groupedConv2d => self.convFlag GroupedConv2d.cls
  | transposeConv2d => self.lastInput [9, 11]
  | averagePool2d | maxPool2d | l2Pool2d => self.lastInput [8, 11]
  | resizeBilinear | resizeNearestNeighbor =>
      if self.inputsSize ≤ 6 then self.firstOptional 3 else none
  | depthToSpace | spaceToDepth | batchToSpaceNd => self.lastInput [3]
  | spaceToBatchNd => self.lastInput [4]

/-- The input that holds the shape of the output, in the layout of the
operation. -/
def outputShape (op : LayoutOperation) (self : OperationsBase) : Option Nat :=
  if op = transposeConv2d ∧ self.inputsSize = 9 then some 3 else none

end LayoutOperation

/-! ## One operation in two layouts -/

/-- The same type and the same quantization. -/
structure Operand.Alike (o o' : Operand) : Prop where
  type : o'.type = o.type
  scale : o'.scale = o.scale
  zeroPoint : o'.zeroPoint = o.zeroPoint
  channelQuant : o'.channelQuant = o.channelQuant

/-- An input that is the same to two operations: its description, its value
when it is read, and its node. -/
structure SameInput (base base' : OperationsBase) (nodes nodes' : NgraphNodes)
    (index : Nat) : Prop where
  operand : (base.getInputOperand index).Alike (base'.getInputOperand index)
  dimensions : base'.getInputOperandDimensions index = base.getInputOperandDimensions index
  isConst : base'.isInputConst index = base.isInputConst index
  scalar : ∀ T, base'.sModelInfo.scalarValue T (base'.inputIndex index) =
    base.sModelInfo.scalarValue T (base.inputIndex index)
  vector : ∀ T, base'.sModelInfo.vectorValue T (base'.inputIndex index) =
    base.sModelInfo.vectorValue T (base.inputIndex index)
  node : nodes'.getOperationOutput (base'.inputIndex index) =
    nodes.getOperationOutput (base.inputIndex index)

/-- Two operations that differ in their layout: an NHWC one, and an NCHW one
whose input, and whose output shape where there is one, are permuted. -/
structure Relaid (base base' : OperationsBase) (nodes nodes' : NgraphNodes) (flag : Nat)
    (shape : Option Nat) : Prop where
  inputsSize : base'.inputsSize = base.inputsSize
  nhwc : base.layoutInput flag = false
  nchw : base'.layoutInput flag = true
  types : ∀ i < base.inputsSize,
    (base'.getInputOperand i).type = (base.getInputOperand i).type
  others : ∀ i < base.inputsSize, i ≠ 0 → i ≠ flag → i ∉ shape →
    SameInput base base' nodes nodes' i
  input : (base.getInputOperand 0).Alike (base'.getInputOperand 0)
  /-- no signature takes an input that is quantized per channel -/
  perTensor : (base.getInputOperand 0).type ≠ .tensorQuant8SymmPerChannel
  dimensions : ∃ b h w c, base.getInputOperandDimensions 0 = arrange false b h w c ∧
    base'.getInputOperandDimensions 0 = arrange true b h w c
  outputShape : ∀ i ∈ shape, ∃ b h w c,
    base.sModelInfo.vectorValue .int32 (base.inputIndex i) = arrange false b h w c ∧
    base'.sModelInfo.vectorValue .int32 (base'.inputIndex i) = arrange true b h w c
  /-- a per-channel filter scales the bias by the scale of operand 0 of the model -/
  scale : base'.sModelInfo.getOperandScale 0 = base.sModelInfo.getOperandScale 0

/-- The node of an input, as it is before any dequantization, denotes a tensor
and has an element type. -/
def OperationsBase.Fetches {R : Type} [Zero R] (self : OperationsBase) (ng : Ngraph)
    (M : Meaning R) (nodes : NgraphNodes) (index : Nat) (type : ElementType) (x : Tensor R) :
    Prop :=
  Returns (answer ng) nodes (self.getInputNode index false) fun node =>
    node.denote M 0 = x ∧ ng.getElementType node = type

/-- ngraph refuses a `Transpose` whose order does not list the axes of its
input. -/
def Ngraph.ChecksOrders (ng : Ngraph) : Prop :=
  ∀ (node : Node) (order : List Nat),
    ng.accepts .transpose [(node, 0),
      (.mk (.constant .i64 [order.length] (order.map fun (a : Nat) => .int a)) [], 0)] = true →
    IsOrder order (ng.getShape node).length

/-! ## Two runs -/

section Same

variable {α β : Type} {ng : Ngraph} {nodes nodes' : NgraphNodes}

/-- Two runs of graph construction, with one ngraph and a node table each. -/
abbrev Compare (ng : Ngraph) (nodes nodes' : NgraphNodes) {α : Type} (p p' : Gen α)
    (Q : α → α → Prop) : Prop :=
  Agree (answer ng) (answer ng) nodes nodes' p p' Q

/-- The two runs return the same value. -/
abbrev Same (ng : Ngraph) (nodes nodes' : NgraphNodes) {α : Type} (p p' : Gen α) : Prop :=
  Compare ng nodes nodes' p p' (· = ·)

theorem Same.step {p p' : Gen α} {f f' : α → Gen β} {Q : β → β → Prop}
    (hp : Same ng nodes nodes' p p') (hf : ∀ a, Compare ng nodes nodes' (f a) (f' a) Q) :
    Compare ng nodes nodes' (p >>= f) (p' >>= f') Q := by
  apply Agree.bind hp
  intro a a' h
  rw [← h]
  exact hf a

/-- Both runs return a known value. -/
theorem same_of_returns {v : α} {p p' : Gen α} (hp : Returns (answer ng) nodes p (· = v))
    (hp' : Returns (answer ng) nodes' p' (· = v)) : Same ng nodes nodes' p p' :=
  (hp.agree hp').mono fun _ _ h => h.1.trans h.2.symm

theorem same_pure (a : α) : Same ng nodes nodes' (pure a) (pure a) := agree_pure rfl

/-- What holds of the two new nodes. -/
theorem compare_make {op op' : NodeOp} {args args' : List Output} {Q : Node → Node → Prop}
    (h : Q (.mk op args) (.mk op' args')) :
    Compare ng nodes nodes' (makeShared op args) (makeShared op' args') Q := by
  have hfirst : Returns (answer ng) nodes (makeShared op args) (· = .mk op args) :=
    returns_make rfl
  have hsecond : Returns (answer ng) nodes' (makeShared op' args') (· = .mk op' args') :=
    returns_make rfl
  apply (hfirst.agree hsecond).mono
  intro r r' hr
  rw [hr.1, hr.2]
  exact h

theorem same_make {op : NodeOp} {args : List Output} :
    Same ng nodes nodes' (makeShared op args) (makeShared op args) := compare_make rfl

theorem same_const {type : ElementType} {shape : List Nat} {vals : List Scalar} :
    Same ng nodes nodes' (createConstNode type shape vals) (createConstNode type shape vals) :=
  same_make

theorem same_dimAt {dims : List Nat} {i : Nat} :
    Same ng nodes nodes' (dimAt dims i) (dimAt dims i) :=
  same_of_returns (returns_dimAt rfl) (returns_dimAt rfl)

theorem same_shapeAt {node : Node} {i : Nat} :
    Same ng nodes nodes' (shapeAt node i) (shapeAt node i) :=
  same_of_returns (returns_shapeAt rfl) (returns_shapeAt rfl)

theorem same_divInt {a b : Int} : Same ng nodes nodes' (divInt a b) (divInt a b) :=
  same_of_returns (returns_divInt rfl) (returns_divInt rfl)

theorem same_readLocal [Inhabited α] {x : Option α} :
    Same ng nodes nodes' (readLocal x) (readLocal x) :=
  same_of_returns (returns_readLocal rfl) (returns_readLocal rfl)

theorem same_faultIf {b : Bool} {f : Fault} :
    Same ng nodes nodes' (faultIf b f) (faultIf b f) :=
  same_of_returns (returns_faultIf rfl) (returns_faultIf rfl)

theorem same_getElementType {node : Node} :
    Same ng nodes nodes' (issue (.getElementType node)) (issue (.getElementType node)) :=
  same_of_returns (returns_getElementType rfl) (returns_getElementType rfl)

theorem same_ite {b : Prop} [Decidable b] {p p' q q' : Gen α}
    (hp : b → Same ng nodes nodes' p p') (hq : ¬ b → Same ng nodes nodes' q q') :
    Same ng nodes nodes' (if b then p else q) (if b then p' else q') :=
  agree_ite Iff.rfl hp hq

theorem same_transpose {type : ConversionType} {input : Output} :
    Same ng nodes nodes' (transpose type input) (transpose type input) :=
  same_make.step fun _ => same_make

theorem same_calculateExplicitPadding {inSize stride filterSize implicit : Int} :
    Same ng nodes nodes' (calculateExplicitPadding inSize stride filterSize implicit)
      (calculateExplicitPadding inSize stride filterSize implicit) := by
  unfold calculateExplicitPadding
  refine same_ite (fun _ => same_divInt.step fun _ => ?_) fun _ => same_pure _
  exact same_ite (fun _ => same_pure _) fun _ => same_pure _

/-- Missing parameters stop both runs. -/
theorem same_channelQuant {operand : Operand} :
    Same ng nodes nodes' (OperationsBase.channelQuant operand)
      (OperationsBase.channelQuant operand) := by
  unfold OperationsBase.channelQuant
  cases operand.channelQuant with
  | some params => exact same_pure params
  | none =>
      intro a _ ha _
      rw [exec_bind_error (e := Stop.aborted) rfl] at ha
      cases ha

/-- A parameter of the operation that both read. -/
theorem same_parse {self self' : OperationsBase} {T : CType} {index : Nat}
    (h : SameInput self self' nodes nodes' index) :
    Same ng nodes nodes' (self.parseOperationInput T index)
      (self'.parseOperationInput T index) :=
  same_of_returns returns_parse (returns_parse.mono fun _ hv => hv.trans (h.scalar T))

theorem same_parseInt32 {self self' : OperationsBase} {index : Nat}
    (h : SameInput self self' nodes nodes' index) :
    Same ng nodes nodes' (self.parseInt32 index) (self'.parseInt32 index) :=
  (same_parse h).step fun _ => same_pure _

theorem same_getConstVecInput {self self' : OperationsBase} {T : CType} {index : Nat}
    (h : SameInput self self' nodes nodes' index) :
    Same ng nodes nodes' (self.getConstVecInput T index) (self'.getConstVecInput T index) :=
  same_of_returns returns_getConstVecOperand
    (returns_getConstVecOperand.mono fun _ hv => hv.trans (h.vector T))

/-! ### Dequantizing -/

/-- `DequantizeNode` asks only for the type and the quantization of its
operand, and for the rank of input 0. -/
theorem dequantizeNode_congr {self self' : OperationsBase} {index index' : Nat}
    (h : (self.sModelInfo.getOperand index).Alike (self'.sModelInfo.getOperand index'))
    (hrank : (self'.getInputOperandDimensions 0).length =
      (self.getInputOperandDimensions 0).length) (node : Node) (type : ElementType) :
    self'.dequantizeNode node index' type = self.dequantizeNode node index type := by
  have hscale : self'.sModelInfo.getOperandScale index' =
      self.sModelInfo.getOperandScale index := by
    rw [NnapiModelInfo.getOperandScale, NnapiModelInfo.getOperandScale, h.scale]
  have hzero : self'.sModelInfo.getOperandZeroPoint index' =
      self.sModelInfo.getOperandZeroPoint index := by
    rw [NnapiModelInfo.getOperandZeroPoint, NnapiModelInfo.getOperandZeroPoint, h.zeroPoint]
  have hscales : self'.channelScaleNode (self'.sModelInfo.getOperand index') =
      self.channelScaleNode (self.sModelInfo.getOperand index) := by
    unfold OperationsBase.channelScaleNode OperationsBase.channelQuant
    rw [h.channelQuant, hrank]
  unfold OperationsBase.dequantizeNode
  simp only [hscale, hzero, hscales, h.type]

theorem same_channelScaleNode {self : OperationsBase} {operand : Operand} :
    Same ng nodes nodes' (self.channelScaleNode operand) (self.channelScaleNode operand) := by
  refine same_channelQuant.step fun params => same_ite (fun _ => ?_) fun _ => ?_
  · intro a _ ha _
    rw [exec_bind_error (e := Stop.exception) rfl] at ha
    cases ha
  · exact same_faultIf.step fun _ => same_const

theorem same_dequantizeNode {self : OperationsBase} {node : Node} {index : Nat}
    {type : ElementType} :
    Same ng nodes nodes' (self.dequantizeNode node index type)
      (self.dequantizeNode node index type) := by
  refine same_getElementType.step fun _ => ?_
  apply Same.step (same_ite (fun _ => same_make) fun _ => same_pure _)
  intro input
  refine Same.step (same_ite (fun _ => ?_) fun _ => ?_) fun _ => ?_
  · exact same_channelScaleNode.step fun _ => same_make
  · refine same_const.step fun _ => same_const.step fun _ => ?_
    exact Same.step (same_ite (fun _ => same_make) fun _ => same_pure _) fun _ => same_make
  · exact same_ite (fun _ => same_make) fun _ => same_pure _

/-- `getInputNode` fetches the node and dequantizes it afterwards. -/
theorem getInputNode_eq (self : OperationsBase) (index : Nat) :
    self.getInputNode index = self.getInputNode index false >>= fun node =>
      if (self.getInputOperand index).type.isQuantized then
        self.dequantizeNode node (self.inputIndex index) .f32
      else pure node := by
  unfold OperationsBase.getInputNode OperationsBase.getInputOperand
    NnapiModelInfo.getOperandType
  by_cases hconst : self.sModelInfo.isOperandLifeTimeConst (self.inputIndex index)
  · simp only [hconst, if_true]
    cases htype : (self.sModelInfo.getOperand (self.inputIndex index)).type <;>
      simp [OperandType.constElement, OperandType.isQuantized]
  · simp [hconst]

end Same

/-! ### The transposed input -/

section Laid

variable {R : Type} [Ring R] {M : Meaning R} {ng : Ngraph} {nodes nodes' : NgraphNodes}
variable {self self' : OperationsBase} {node node' : Node}

/-- The second node denotes the NCHW transposition of the first. -/
structure Laid (M : Meaning R) (node node' : Node) : Prop where
  rank : (node.denote M 0).shape.length = 4
  transposed : node'.denote M 0 = (node.denote M 0).transpose [0, 3, 1, 2]

/-- A function of every entry keeps the transposition. -/
theorem Laid.map {r r' : Node} {f : R → R} (h : Laid M node node')
    (hr : r.denote M 0 = (node.denote M 0).map f)
    (hr' : r'.denote M 0 = (node'.denote M 0).map f) : Laid M r r' := by
  refine ⟨by rw [hr]; exact h.rank, ?_⟩
  rw [hr, hr', h.transposed, Tensor.transpose_map (isOrder_nchw h.rank)]

theorem Laid.convert (he : M.Elementwise) (h : Laid M node node') {type : ElementType} :
    Compare ng nodes nodes' (makeShared (.convert type) [node]) (makeShared (.convert type) [node'])
      (Laid M) := by
  obtain ⟨f, hf⟩ := he.convert type
  exact compare_make (h.map (hf _) (hf _))

/-- A tensor without axes is combined with every entry. -/
theorem Laid.scalar {op : NodeOp} {f : R → R → R} {constant : Node}
    (hop : ∀ x y, M op [x, y] 0 = Tensor.broadcast f x y)
    (hconstant : (constant.denote M 0).shape = []) (h : Laid M node node') :
    Compare ng nodes nodes' (makeShared op [node, constant]) (makeShared op [node', constant])
      (Laid M) := by
  have hmap : ∀ n : Node, (Node.mk op [(n, 0), (constant, 0)]).denote M 0 =
      (n.denote M 0).map fun a => f a ((constant.denote M 0).get []) := by
    intro n
    exact (hop _ _).trans (Tensor.broadcast_scalar hconstant)
  exact compare_make (h.map (hmap node) (hmap node'))

/-- Dequantizing with one scale works entry by entry. -/
theorem laid_dequantizeNode (he : M.Elementwise) {index : Nat} (h : Laid M node node')
    (htype : ng.getElementType node' = ng.getElementType node)
    (hquant : (self.sModelInfo.getOperand index).type ≠ .tensorQuant8SymmPerChannel) :
    Compare ng nodes nodes' (self.dequantizeNode node index .f32)
      (self.dequantizeNode node' index .f32) (Laid M) := by
  unfold OperationsBase.dequantizeNode
  refine Same.step (same_of_returns (returns_getElementType rfl) (returns_getElementType htype))
    fun inputType => ?_
  refine Agree.bind (agree_ite Iff.rfl (fun _ => h.convert he) fun _ => agree_pure h)
    fun input input' hinput => ?_
  have hconst : ∀ v, Compare ng nodes nodes' (createConstNode .f32 [] [v])
      (createConstNode .f32 [] [v]) fun c c' => c' = c ∧ (c.denote M 0).shape = [] :=
    fun v => compare_make ⟨rfl, he.scalar .f32 v⟩
  have hlast : ∀ r r', Laid M r r' → Compare ng nodes nodes'
      (if ElementType.f32 = .f16 then makeShared (.convert .f32) [(r, 0)] else pure r)
      (if ElementType.f32 = .f16 then makeShared (.convert .f32) [(r', 0)] else pure r')
      (Laid M) := by
    intro r r' hr
    exact agree_pure hr
  simp only [hquant, if_false]
  refine Agree.bind ?_ hlast
  refine Agree.bind (hconst _) ?_
  intro scale _ hboth
  rcases hboth with ⟨rfl, hscale⟩
  refine Agree.bind (hconst _) ?_
  intro zeroPoint _ hboth
  rcases hboth with ⟨rfl, hzero⟩
  refine Agree.bind (agree_ite Iff.rfl (fun _ => hinput.scalar he.subtract hzero)
    fun _ => agree_pure hinput) fun r r' hr => ?_
  exact hr.scalar he.multiply hscale

/-- The input, dequantized where its type is quantized. -/
theorem laid_getInputNode (he : M.Elementwise) {flag : Nat} {shape : Option Nat}
    (h : Relaid self self' nodes nodes' flag shape) {type : ElementType} {x : Tensor R}
    (hrank : x.shape.length = 4) (hx : self.Fetches ng M nodes 0 type x)
    (hx' : self'.Fetches ng M nodes' 0 type (x.transpose [0, 3, 1, 2])) :
    Compare ng nodes nodes' (self.getInputNode 0) (self'.getInputNode 0) (Laid M) := by
  rcases h.dimensions with ⟨b, ht, w, c, hdims, hdims'⟩
  rw [getInputNode_eq, getInputNode_eq]
  apply Agree.bind (hx.agree hx')
  intro node node' hnode
  rcases hnode with ⟨⟨hdenote, htype⟩, hdenote', htype'⟩
  have hlaid : Laid M node node' := by
    refine ⟨by rw [hdenote]; exact hrank, ?_⟩
    rw [hdenote', hdenote]
  rw [h.input.type, dequantizeNode_congr h.input (by rw [hdims, hdims']; rfl)]
  refine agree_ite Iff.rfl (fun _ => ?_) fun _ => agree_pure hlaid
  exact laid_dequantizeNode he hlaid (by rw [htype, htype']) h.perTensor

end Laid

/-! ### The other inputs -/

section Shared

variable {ng : Ngraph} {nodes nodes' : NgraphNodes} {self self' : OperationsBase}
variable {flag : Nat} {shape : Option Nat}

theorem Relaid.rank (h : Relaid self self' nodes nodes' flag shape) :
    (self'.getInputOperandDimensions 0).length = (self.getInputOperandDimensions 0).length := by
  rcases h.dimensions with ⟨b, ht, w, c, hdims, hdims'⟩
  rw [hdims, hdims']
  rfl

/-- The inputs both share, where no output shape is among them. -/
theorem Relaid.kept (h : Relaid self self' nodes nodes' flag none) {index : Nat}
    (hindex : 0 < index ∧ index < self.inputsSize) (hflag : index ≠ flag) :
    SameInput self self' nodes nodes' index := by
  refine h.others index hindex.2 ?_ hflag (by simp)
  omega

/-- The node of an input that is the same to both. -/
theorem same_getInputNode {index : Nat} (h : SameInput self self' nodes nodes' index)
    (hrank : (self'.getInputOperandDimensions 0).length =
      (self.getInputOperandDimensions 0).length) :
    Same ng nodes nodes' (self.getInputNode index) (self'.getInputNode index) := by
  have hfetch : Same ng nodes nodes' (self.getInputNode index false)
      (self'.getInputNode index false) := by
    have htype : self'.sModelInfo.getOperandType (self'.inputIndex index) =
        self.sModelInfo.getOperandType (self.inputIndex index) := h.operand.type
    have hconst : self'.sModelInfo.isOperandLifeTimeConst (self'.inputIndex index) =
        self.sModelInfo.isOperandLifeTimeConst (self.inputIndex index) := h.isConst
    unfold OperationsBase.getInputNode
    simp only [htype, hconst, h.dimensions, Bool.false_and, Bool.false_eq_true, if_false]
    refine same_ite (fun _ => ?_) fun _ => ?_
    · cases (self.sModelInfo.getOperandType (self.inputIndex index)).constElement with
      | none =>
          have hnull : ∀ {operand : Nat} {nodes : NgraphNodes}, Returns (answer ng) nodes
              (issue (.nullConstant operand)) (· = ()) :=
            returns_perform fun r s' hr => by cases hr; exact ⟨rfl, rfl⟩
          exact (same_of_returns hnull hnull).step fun _ => same_pure _
      | some element =>
          apply (same_getConstVecInput h).step
          intro values
          exact same_const.step fun _ => same_pure _
    · have houtput : Returns (answer ng) nodes'
          (issue (.getOperationOutput (self'.inputIndex index)))
          (· = (nodes.getOperationOutput (self.inputIndex index)).getD default) :=
        returns_getOperationOutput (by rw [h.node])
      exact (same_of_returns (returns_getOperationOutput rfl) houtput).step fun _ => same_pure _
  rw [getInputNode_eq, getInputNode_eq, h.operand.type]
  refine hfetch.step fun node => same_ite (fun _ => ?_) fun _ => same_pure _
  rw [dequantizeNode_congr h.operand hrank]
  exact same_dequantizeNode

/-- The bias, scaled where the convolution is quantized. -/
theorem same_convBias (h : Relaid self self' nodes nodes' flag shape)
    (hfilter : SameInput self self' nodes nodes' 1) (hbias : SameInput self self' nodes nodes' 2)
    {biasNode : Node} :
    Same ng nodes nodes' (self.convBias biasNode) (self'.convBias biasNode) := by
  unfold OperationsBase.convBias OperationsBase.checkInputOperandType
  rw [hfilter.operand.type, h.input.type, h.scale]
  have hquant : OperationsBase.channelQuant (self'.getInputOperand 1) =
      OperationsBase.channelQuant (self.getInputOperand 1) := by
    unfold OperationsBase.channelQuant
    rw [hfilter.operand.channelQuant]
  rw [hquant, dequantizeNode_congr hbias.operand h.rank]
  refine same_ite (fun _ => ?_) fun _ => same_ite (fun _ => same_dequantizeNode) fun _ =>
    same_pure _
  refine same_channelQuant.step fun _ => same_const.step fun _ => same_const.step fun _ => ?_
  exact same_make.step fun _ => same_make.step fun _ => same_make

/-- The sizes are read at the positions of the layout. -/
theorem same_convInputSizes (h : Relaid self self' nodes nodes' flag shape)
    {hasChannel : Bool} :
    Same ng nodes nodes' (self.convInputSizes hasChannel false)
      (self'.convInputSizes hasChannel true) := by
  rcases h.dimensions with ⟨b, ht, w, c, hdims, hdims'⟩
  unfold OperationsBase.convInputSizes
  rw [hdims, hdims']
  cases hasChannel <;> exact same_pure _

/-- The layout flag as each of the two reads it. -/
theorem compare_useNchw (h : Relaid self self' nodes nodes' flag shape) {count : Nat}
    (hcount : self.inputsSize = count) (hflag : flag < count) :
    Compare ng nodes nodes' (self.useNchw count flag) (self'.useNchw count flag)
      fun useNchw useNchw' => useNchw = false ∧ useNchw' = true := by
  have hlayout : ∀ {base : OperationsBase} {nodes : NgraphNodes}, base.inputsSize = count →
      Returns (answer ng) nodes (base.useNchw count flag) (· = base.layoutInput flag) := by
    intro base nodes hsize
    unfold OperationsBase.useNchw OperationsBase.layoutInput
    rw [if_pos hsize, hsize]
    refine returns_parse.bind fun layout hl => returns_pure ?_
    rw [hl]
    simp [hflag]
  refine (Returns.agree (hlayout hcount) (hlayout (h.inputsSize.trans hcount))).mono ?_
  intro useNchw useNchw' hboth
  rcases hboth with ⟨hfirst, hsecond⟩
  exact ⟨hfirst.trans h.nhwc, hsecond.trans h.nchw⟩

/-- The flag of a signature that has it for certain. -/
theorem compare_layout (h : Relaid self self' nodes nodes' flag shape) :
    Compare ng nodes nodes' (self.parseOperationInput .uint8 flag)
      (self'.parseOperationInput .uint8 flag)
      fun layout layout' => layout = 0 ∧ layout' ≠ 0 := by
  have hfirst := h.nhwc
  have hsecond := h.nchw
  apply (Returns.agree returns_parse returns_parse).mono
  intro layout layout' hl
  rw [hl.1, hl.2]
  simp only [OperationsBase.layoutInput, decide_eq_false_iff_not, decide_eq_true_eq, not_and,
    not_not] at hfirst hsecond
  exact ⟨hfirst (by rw [← h.inputsSize]; exact hsecond.1), hsecond.2⟩

end Shared

/-! ### Between the transpositions -/

section Middle

variable {R : Type} [Ring R] {M : Meaning R} {ng : Ngraph} {nodes nodes' : NgraphNodes}
variable {self self' : OperationsBase} {node node' : Node}

/-- The two nodes denote one tensor. -/
def SameTensor (M : Meaning R) (node node' : Node) : Prop := node.denote M 0 = node'.denote M 0

/-- The first node denotes the NHWC transposition of the second. -/
def Restored (M : Meaning R) (node node' : Node) : Prop :=
  node.denote M 0 = (node'.denote M 0).transpose [0, 2, 3, 1]

/-- An operation of ngraph is a function of its input tensors. -/
theorem SameTensor.make {op : NodeOp} {args args' : List Output}
    (h : Node.denoteAll M args = Node.denoteAll M args') :
    Compare ng nodes nodes' (makeShared op args) (makeShared op args') (SameTensor M) := by
  have hdenote : SameTensor M (.mk op args) (.mk op args') := by
    rw [SameTensor, Node.denote, Node.denote, h]
  exact compare_make hdenote

/-- The input of the first run is brought to NCHW, that of the second is. -/
theorem compare_toNchw (ht : M.Transposes) (h : Laid M node node') :
    Compare ng nodes nodes' (transposeUnless false .nhwcNchw node)
      (transposeUnless true .nhwcNchw node') (SameTensor M) := by
  have hfirst : Returns (answer ng) nodes (transposeUnless false .nhwcNchw node) fun r =>
      r.denote M 0 = (node.denote M 0).transpose [0, 3, 1, 2] :=
    returns_transpose ht rfl (isOrder_nchw h.rank)
  have hsecond : Returns (answer ng) nodes' (transposeUnless true .nhwcNchw node') (· = node') :=
    returns_pure rfl
  apply (hfirst.agree hsecond).mono
  intro r r' hr
  rw [SameTensor, hr.1, hr.2, h.transposed]

/-- The output of the first run is brought back from NCHW. -/
theorem compare_fromNchw (ht : M.Transposes) (hng : ng.Infers M) (hc : ng.ChecksOrders)
    (h : SameTensor M node node') :
    Compare ng nodes nodes' (transposeUnless false .nchwNhwc node)
      (transposeUnless true .nchwNhwc node') (Restored M) := by
  have hfirst : Returns (answer ng) nodes (transposeUnless false .nchwNhwc node) fun r =>
      r.denote M 0 = (node.denote M 0).transpose [0, 2, 3, 1] := by
    refine Returns.bind (Q := (· = .mk (.constant .i64 [4] ([0, 2, 3, 1].map fun (a : Nat) =>
      .int a)) [])) (returns_make rfl) fun orderNode hnode => ?_
    rw [hnode]
    apply returns_make_accepted
    intro haccepts
    have hrank := hc node [0, 2, 3, 1] haccepts
    rw [hng] at hrank
    have hconstant := ht.constant .i64 [0, 2, 3, 1]
    have htranspose := ht.transpose (node.denote M 0) [0, 2, 3, 1] hrank
    simp at hconstant htranspose
    simpa [Node.denote, Node.denoteAll, Node.denoteOutput, hconstant] using htranspose
  have hsecond : Returns (answer ng) nodes' (transposeUnless true .nchwNhwc node') (· = node') :=
    returns_pure rfl
  apply (hfirst.agree hsecond).mono
  intro r r' hr
  rw [Restored, hr.1, hr.2, h]

theorem compare_applyActivation {activationFn : Int} (h : SameTensor M node node') :
    Compare ng nodes nodes' (applyActivation node activationFn)
      (applyActivation node' activationFn) (SameTensor M) := by
  have hargs : Node.denoteAll M [(node, 0)] = Node.denoteAll M [(node', 0)] :=
    congrArg (fun x => [x]) h
  unfold applyActivation
  refine agree_ite Iff.rfl (fun _ => agree_pure h) fun _ => ?_
  refine agree_ite Iff.rfl (fun _ => SameTensor.make hargs) fun _ => ?_
  refine agree_ite Iff.rfl (fun _ => SameTensor.make hargs) fun _ => ?_
  exact agree_ite Iff.rfl (fun _ => SameTensor.make hargs) fun _ => agree_pure h

theorem compare_addBias (hng : ng.Infers M) (hbias : SameInput self self' nodes nodes' 2)
    {biasNode : Node} {activationFn : Int} (h : SameTensor M node node') :
    Compare ng nodes nodes' (self.addBias node biasNode activationFn)
      (self'.addBias node' biasNode activationFn) (SameTensor M) := by
  have hshape : ng.getShape node' = ng.getShape node := by rw [hng, hng, h]
  unfold OperationsBase.addBias
  rw [hbias.dimensions]
  refine Same.step (same_of_returns (returns_getShape rfl) (returns_getShape hshape))
    fun outputShape => ?_
  apply same_dimAt.step
  intro bias
  apply same_faultIf.step
  intro _
  apply same_const.step
  intro _
  apply same_make.step
  intro reshaped
  refine Agree.bind (SameTensor.make ?_) fun _ _ hsum => compare_applyActivation hsum
  exact congrArg (fun x => [x, reshaped.denote M 0]) h

/-- What every class ends with: the activation, and the transposition back. -/
theorem compare_tail (ht : M.Transposes) (hng : ng.Infers M) (hc : ng.ChecksOrders)
    {activationFn : Option Int} (h : SameTensor M node node') :
    Compare ng nodes nodes'
      (do
        let activationFn ← readLocal activationFn
        let outputNode ← applyActivation node activationFn
        transposeUnless false .nchwNhwc outputNode)
      (do
        let activationFn ← readLocal activationFn
        let outputNode ← applyActivation node' activationFn
        transposeUnless true .nchwNhwc outputNode)
      (Restored M) := by
  apply same_readLocal.step
  intro code
  exact Agree.bind (compare_applyActivation h) fun _ _ => compare_fromNchw ht hng hc

end Middle

end NnHal
