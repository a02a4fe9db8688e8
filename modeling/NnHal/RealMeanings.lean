import NnHal.NnapiOperations
import NnHal.Elementwise

/-!
# Graphs over the real numbers

ngraph's operations as functions of real tensors, as far as the driver uses
them, and the two sides of an operation: the arguments NNAPI gives it and the
nodes the driver builds from them.  An operation meets its arguments when every
tensor among them is denoted by the node it is read from.
-/

namespace NnHal

open Command Tensors Quantization StraightLine

/-! ## The documented operations -/

/-- The function of one entry that an operation is. -/
noncomputable def NodeOp.entrywise : NodeOp → Option Entrywise
  | .abs => some .abs
  | .exp => some .exp
  | .floor => some .floor
  | .hSwish => some .hardSwish
  | .log => some .log
  | .logicalNot => some .logicalNot
  | .negative => some .neg
  | .relu => some .relu
  | .sigmoid => some .logistic
  | .sin => some .sin
  | .sqrt => some .sqrt
  | .tanh => some .tanh
  | .clamp (.int low) (.int high) => some (.total fun v => min (max v low) high)
  | _ => none

/-- The function of two entries that an operation is. -/
noncomputable def NodeOp.pairwise : NodeOp → Option Pairwise
  | .add => some .add
  | .subtract => some .sub
  | .multiply => some .mul
  | .divide => some .div
  | .maximum => some .maximum
  | .minimum => some .minimum
  | .power => some .pow
  | .equal => some .equal
  | .notEqual => some .notEqual
  | .greater => some .greater
  | .greaterEqual => some .greaterEqual
  | .less => some .less
  | .lessEqual => some .lessEqual
  | .logicalAnd => some .logicalAnd
  | .logicalOr => some .logicalOr
  | _ => none

/-- The function of a line that a reduction is, and whether it keeps the axis. -/
noncomputable def NodeOp.reduction : NodeOp → Option (Bool × Reduction)
  | .reduceSum keepDims => some (keepDims, .sum)
  | .reduceProd keepDims => some (keepDims, .prod)
  | .reduceMax keepDims => some (keepDims, .max)
  | .reduceMin keepDims => some (keepDims, .min)
  | .reduceMean keepDims => some (keepDims, .mean)
  | .reduceLogicalAnd keepDims => some (keepDims, .all)
  | .reduceLogicalOr keepDims => some (keepDims, .any)
  | _ => none

/-- What ngraph's operations make of real tensors. -/
structure Meaning.Computable (M : Meaning ℝ) : Prop
    extends Meaning.Transposes M, Meaning.AddsBias M where
  number : ∀ type shape (scalars : List Scalar), scalars.length = shape.prod →
    (∀ s ∈ scalars, s.Finite ∧ type.Holds s.real) →
    M (.constant type shape scalars) [] 0 = constantTensor shape scalars
  convert : ∀ (type : ElementType) (x : Tensor ℝ),
    (∀ index, Inside x.shape index → type.Holds (x.get index)) → M (.convert type) [x] 0 = x
  round : ∀ x, M .roundHalfToEven [x] 0 = x.map fun v => (roundHalfEven v : ℝ)
  entrywise : ∀ (op : NodeOp) (f : Entrywise), op.entrywise = some f →
    ∀ x, f.DefinedOn x → M op [x] 0 = x.map f.apply
  pairwise : ∀ (op : NodeOp) (f : Pairwise), op.pairwise = some f →
    ∀ x y, f.DefinedOn x y → M op [x, y] 0 = Tensor.broadcast f.apply x y
  select : ∀ c x y : Tensor ℝ, c.shape = x.shape → y.shape = x.shape →
    M .select [c, x, y] 0 = Tensor.ofFn x.shape fun index =>
      if c.get index ≠ 0 then x.get index else y.get index
  /-- the axes come as a tensor; a negative one counts from the end -/
  reduce : ∀ (op : NodeOp) (keepDims : Bool) (f : Reduction), op.reduction = some (keepDims, f) →
    ∀ (x : Tensor ℝ) (axes : List Int), f.DefinedOn x axes →
    M op [x, Tensor.ofList (axes.map fun (a : Int) => (a : ℝ))] 0 =
      x.reduce f.apply keepDims (axes.map (normalAxis x.shape.length))

/-! ## Constants -/

section Constants

variable {M : Meaning ℝ}

theorem real_int (v : Int) : (Scalar.int v).real = (v : ℝ) := by simp [Scalar.real, Scalar.value]

/-- A number without axes. -/
theorem Meaning.Computable.scalar (hM : M.Computable) {type : ElementType} {s : Scalar}
    (hs : s.Finite ∧ type.Holds s.real) :
    ((Node.mk (.constant type [] [s]) []).denote M 0).shape = [] ∧
      ((Node.mk (.constant type [] [s]) []).denote M 0).get [] = s.real := by
  have hall : ∀ s' ∈ [s], s'.Finite ∧ type.Holds s'.real := by
    intro s' hs'
    rwa [List.mem_singleton.mp hs']
  rw [Node.denote, Node.denoteAll, hM.number type [] [s] rfl hall]
  exact ⟨rfl, Tensor.get_ofFn inside_nil⟩

/-- A function of an entry and a number without axes. -/
theorem broadcast_number {f : ℝ → ℝ → ℝ} {x y : Tensor ℝ} {v : ℝ}
    (hy : y.shape = [] ∧ y.get [] = v) : Tensor.broadcast f x y = x.map fun u => f u v := by
  rw [Tensor.broadcast_scalar hy.1, hy.2]

theorem definedOn_total {f : ℝ → ℝ} {x : Tensor ℝ} : (Entrywise.total f).DefinedOn x :=
  fun _ _ => trivial

theorem definedOn_total_pair {f : ℝ → ℝ → ℝ} {x y : Tensor ℝ}
    (h : Broadcastable x.shape y.shape) : (Pairwise.total f).DefinedOn x y :=
  ⟨h, fun _ _ => trivial⟩

end Constants

/-! ## Quantized operands -/

section Affine

variable {o : Operand} {a : Affine ℝ}

/-- What the scale and the zero point of a quantized operand are. -/
theorem affine_eq_some (h : o.affine = some a) :
    o.type.affineRange = some a.range ∧ (Scalar.float32 o.scale).Finite ∧
      (Scalar.float32 o.scale).real = a.scale ∧ o.zeroPoint = a.zeroPoint ∧
        (o.type.symmetric = true → a.zeroPoint = 0) := by
  unfold Operand.affine at h
  obtain ⟨range, hrange, h⟩ := Option.bind_eq_some_iff.mp h
  split at h
  · next hvalid =>
    obtain rfl := Option.some.inj h
    exact ⟨hrange, hvalid.1, rfl, rfl, hvalid.2.2.2⟩
  · cases h

/-- Its range holds 32-bit numbers. -/
theorem contains_affine (h : o.affine = some a) {v : Int} (hv : a.range.Contains v) :
    int32Range.Contains v := by
  have hbounds := (OperandType.affineRange_cases (affine_eq_some h).1).2
  simp only [IntRange.Contains, int32Range] at hv ⊢
  omega

theorem storage_holds (h : o.affine = some a) {v : Int} (hv : a.range.Contains v) :
    o.type.storage.Holds v := by
  have hrange := (OperandType.affineRange_cases (affine_eq_some h).1).1
  unfold ElementType.Holds
  cases hstorage : o.type.storage <;> rw [hstorage] at hrange <;> first
    | cases hrange
    | exact ⟨a.range, hrange, v, hv, rfl⟩

end Affine

section Runs

variable {M : Meaning ℝ} {ng : Ngraph} {nodes : NgraphNodes} {self : OperationsBase}
variable {index : Nat} {a : Affine ℝ}

/-- An operation of one node. -/
theorem returns_entrywise (hM : M.Computable) (op : NodeOp) {f : Entrywise}
    (hop : op.entrywise = some f) {node : Node} {x : Tensor ℝ} (hnode : node.denote M 0 = x)
    (hf : f.DefinedOn x) :
    Returns (answer ng) nodes (makeShared op [node]) fun r => r.denote M 0 = x.map f.apply := by
  apply returns_make
  rw [Node.denote_mk_one, hnode, hM.entrywise op f hop x hf]

/-- An operation of two nodes. -/
theorem returns_pairwise (hM : M.Computable) (op : NodeOp) {f : Pairwise}
    (hop : op.pairwise = some f) {node node' : Node} {x y : Tensor ℝ}
    (hnode : node.denote M 0 = x) (hnode' : node'.denote M 0 = y) (hf : f.DefinedOn x y) :
    Returns (answer ng) nodes (makeShared op [node, node']) fun r =>
      r.denote M 0 = Tensor.broadcast f.apply x y := by
  apply returns_make
  rw [Node.denote_mk_two, hnode, hnode', hM.pairwise op f hop x y hf]

/-- A constant without axes. -/
theorem returns_number (hM : M.Computable) (type : ElementType) {s : Scalar}
    (hs : s.Finite ∧ type.Holds s.real) :
    Returns (answer ng) nodes (createConstNode type [] [s]) fun node =>
      (node.denote M 0).shape = [] ∧ (node.denote M 0).get [] = s.real :=
  returns_const (hM.scalar hs)

theorem broadcastable_nil (s : List Nat) : Broadcastable s [] := fun _ => .inr (.inr rfl)

/-- A conversion to `f32`, or none. -/
theorem returns_asFloat (hM : M.Computable) {b : Prop} [Decidable b] {input : Node} :
    Returns (answer ng) nodes (if b then makeShared (.convert .f32) [input] else pure input)
      fun node => node.denote M 0 = input.denote M 0 := by
  refine returns_ite (fun _ => returns_make ?_) fun _ => returns_pure rfl
  rw [Node.denote_mk_one, hM.convert .f32 _ fun _ _ => trivial]

/-- `DequantizeNode` gives the numbers that are stored. -/
theorem returns_loaded (hM : M.Computable) (ha : (self.sModelInfo.getOperand index).affine = some a)
    (input : Node) (type : ElementType) :
    Returns (answer ng) nodes (self.dequantizeNode input index type) fun node =>
      node.denote M 0 = (input.denote M 0).map fun v => (v - a.zeroPoint) * a.scale := by
  obtain ⟨hrange, hfinite, hscale, hzero, hsymmetric⟩ := affine_eq_some ha
  have hchannel : (self.sModelInfo.getOperand index).type ≠ .tensorQuant8SymmPerChannel := by
    intro hcase
    rw [hcase] at hrange
    cases hrange
  unfold OperationsBase.dequantizeNode
  refine Returns.bind (Q := fun _ => True) (returns_getElementType trivial) fun _ _ => ?_
  apply (returns_asFloat hM).bind
  intro float hfloat
  refine Returns.bind (Q := fun node => node.denote M 0 =
    (input.denote M 0).map fun v => (v - a.zeroPoint) * a.scale) ?_ fun node hnode => ?_
  · rw [if_neg hchannel]
    apply (returns_number hM .f32 ⟨hfinite, trivial⟩).bind
    intro scale hscaleNode
    rw [hscale] at hscaleNode
    have hzeroReal : (Scalar.toFloat (self.sModelInfo.getOperandZeroPoint index)).real =
        a.zeroPoint := by
      rw [NnapiModelInfo.getOperandZeroPoint, hzero]
      exact real_int _
    have hzeroFinite : (Scalar.toFloat (self.sModelInfo.getOperandZeroPoint index)).Finite :=
      trivial
    apply (returns_number hM .f32 ⟨hzeroFinite, trivial⟩).bind
    intro zeroPoint hzeroNode
    rw [hzeroReal] at hzeroNode
    -- the types without a zero point skip the subtraction
    refine Returns.bind (Q := fun node => node.denote M 0 =
      (input.denote M 0).map fun v => v - (a.zeroPoint : ℝ))
      (returns_ite (fun _ => ?_) fun hsymm => ?_) fun shifted hshifted => ?_
    · have hfits := broadcastable_nil (input.denote M 0).shape
      rw [← hzeroNode.1] at hfits
      apply (returns_pairwise hM .subtract rfl hfloat rfl
        (definedOn_total_pair hfits)).mono
      intro node hnode
      rw [hnode, broadcast_number hzeroNode]
      rfl
    · have hnone : a.zeroPoint = 0 := by
        apply hsymmetric
        cases hcase : (self.sModelInfo.getOperand index).type <;> rw [hcase] at hrange hsymm
        case tensorQuant8Symm | tensorQuant16Symm => rfl
        case tensorQuant8Asymm => exact absurd (.inl rfl) hsymm
        case tensorQuant16Asymm => exact absurd (.inr (.inl rfl)) hsymm
        case tensorQuant8AsymmSigned => exact absurd (.inr (.inr rfl)) hsymm
        all_goals cases hrange
      apply returns_pure
      rw [hfloat, hnone]
      simp only [Int.cast_zero, sub_zero, Tensor.map_id]
    · have hfits := broadcastable_nil ((input.denote M 0).map fun v => v - (a.zeroPoint : ℝ)).shape
      rw [← hscaleNode.1] at hfits
      apply (returns_pairwise hM .multiply rfl hshifted rfl
        (definedOn_total_pair hfits)).mono
      intro node hnode
      rw [hnode, broadcast_number hscaleNode]
      exact Tensor.map_map _ _ _
  · refine returns_ite (fun hhalf => returns_make ?_) fun _ => returns_pure hnode
    subst hhalf
    rw [Node.denote_mk_one, hM.convert .f16 _ fun _ _ => trivial, hnode]

/-- The clamp of `QuantizeNode` is that to the range of the operand. -/
theorem returns_clampRange (hM : M.Computable)
    (ha : (self.sModelInfo.getOperand index).affine = some a) {sum : Node} {y : Tensor ℝ}
    (hsum : sum.denote M 0 = y) :
    Returns (answer ng) nodes
      (match self.sModelInfo.getOperandType index with
      | .tensorQuant8Asymm => makeShared (.clamp (.int 0) (.int 255)) [sum]
      | .tensorQuant8Symm | .tensorQuant8AsymmSigned =>
          makeShared (.clamp (.int (-128)) (.int 127)) [sum]
      | .tensorQuant16Symm => makeShared (.clamp (.int (-32768)) (.int 32767)) [sum]
      | .tensorQuant16Asymm => makeShared (.clamp (.int 0) (.int 65535)) [sum]
      | _ => deref none)
      fun node => node.denote M 0 =
        y.map fun v => min (max v (a.range.low : ℝ)) (a.range.high : ℝ) := by
  have hrange := (affine_eq_some ha).1
  have htype : self.sModelInfo.getOperandType index = (self.sModelInfo.getOperand index).type := rfl
  have hclamp : ∀ range : IntRange, some range = some a.range →
      Returns (answer ng) nodes (makeShared (.clamp (.int range.low) (.int range.high)) [sum])
        fun node => node.denote M 0 =
          y.map fun v => min (max v (a.range.low : ℝ)) (a.range.high : ℝ) := by
    intro range heq
    obtain rfl := Option.some.inj heq
    exact returns_entrywise hM _ rfl hsum definedOn_total
  rw [htype]
  cases hcase : (self.sModelInfo.getOperand index).type <;> rw [hcase] at hrange
  case tensorQuant8Asymm => exact hclamp _ hrange
  case tensorQuant8Symm => exact hclamp _ hrange
  case tensorQuant8AsymmSigned => exact hclamp _ hrange
  case tensorQuant16Symm => exact hclamp _ hrange
  case tensorQuant16Asymm => exact hclamp _ hrange
  all_goals cases hrange

/-- A tensor of integers a type has is converted to it without loss. -/
theorem returns_converted (hM : M.Computable) {node : Node} {y : Tensor ℝ} {f : ℝ → Int}
    {type : ElementType} (hnode : node.denote M 0 = y.map fun v => (f v : ℝ))
    (hf : ∀ i, Inside y.shape i → type.Holds (f (y.get i))) :
    Returns (answer ng) nodes (makeShared (.convert type) [node]) fun r =>
      r.denote M 0 = y.map fun v => (f v : ℝ) := by
  apply returns_make
  rw [Node.denote_mk_one, hnode]
  apply hM.convert
  intro i hin
  replace hin : Inside y.shape i := hin
  rw [Tensor.get_map hin]
  exact hf i hin

/-- `QuantizeNode` stores the numbers of its input. -/
theorem returns_stored (hM : M.Computable) (ha : (self.sModelInfo.getOperand index).affine = some a)
    {input : Node} {y : Tensor ℝ} (hinput : input.denote M 0 = y)
    (hy : ∀ i, Inside y.shape i → Storable a (y.get i)) :
    Returns (answer ng) nodes
      (self.quantizeNode input index (self.sModelInfo.getOperand index).type.storage)
      fun node => node.denote M 0 = y.map fun v => (a.quantize v : ℝ) := by
  obtain ⟨-, hfinite, hscale, hzero, -⟩ := affine_eq_some ha
  have hinteger : ∀ v : Int, int32Range.Contains v → ElementType.Holds .i32 (v : ℝ) :=
    fun v hv => ⟨int32Range, rfl, v, hv, rfl⟩
  have hzeroReal : (self.sModelInfo.getOperandZeroPoint index).real = a.zeroPoint := by
    rw [NnapiModelInfo.getOperandZeroPoint, hzero, real_int]
  unfold OperationsBase.quantizeNode
  apply (returns_number hM .f32 ⟨hfinite, trivial⟩).bind
  intro scale hscaleNode
  rw [hscale] at hscaleNode
  have hzeroFinite : (self.sModelInfo.getOperandZeroPoint index).Finite := trivial
  have hzeroHolds : ElementType.Holds .i32 (self.sModelInfo.getOperandZeroPoint index).real := by
    rw [hzeroReal]
    exact hinteger _ (contains_affine ha a.contains_zeroPoint)
  apply (returns_number hM .i32 ⟨hzeroFinite, hzeroHolds⟩).bind
  intro zeroPoint hzeroNode
  rw [hzeroReal] at hzeroNode
  refine Returns.bind (Q := fun _ => True) (returns_getElementType trivial) fun _ _ => ?_
  apply (returns_asFloat hM).bind
  intro float hfloat
  rw [hinput] at hfloat
  have hfits := broadcastable_nil y.shape
  refine Returns.bind (Q := fun node => node.denote M 0 = y.map fun v => v / a.scale) ?_ ?_
  · have hdefined : Pairwise.div.DefinedOn y (scale.denote M 0) := by
      refine ⟨by rw [hscaleNode.1]; exact hfits, fun i _ => ?_⟩
      rw [hscaleNode.1]
      exact hscaleNode.2.trans_ne a.scale_pos.ne'
    apply (returns_pairwise hM .divide rfl hfloat rfl hdefined).mono
    intro node hnode
    rw [hnode, broadcast_number hscaleNode]
    rfl
  intro div hdiv
  refine Returns.bind (Q := fun node => node.denote M 0 =
    y.map fun v => (roundHalfEven (v / a.scale) : ℝ)) (returns_make ?_) fun round hround => ?_
  · rw [Node.denote_mk_one, hdiv, hM.round]
    exact Tensor.map_map _ _ _
  apply (returns_converted hM hround fun i hin => hinteger _ (hy i hin).1).bind
  intro convertRound hconvert
  refine Returns.bind (Q := fun node => node.denote M 0 =
    y.map fun v => ((roundHalfEven (v / a.scale) + a.zeroPoint : Int) : ℝ)) ?_ ?_
  · have hadd : Pairwise.add.DefinedOn (convertRound.denote M 0) (zeroPoint.denote M 0) := by
      apply definedOn_total_pair
      rw [hzeroNode.1]
      exact broadcastable_nil _
    apply (returns_pairwise hM .add rfl rfl rfl hadd).mono
    intro node hnode
    rw [hnode, broadcast_number hzeroNode, hconvert]
    refine (Tensor.map_map _ _ _).trans ?_
    simp only [Pairwise.add, Pairwise.total, Int.cast_add]
  intro sum hsum
  apply (returns_clampRange hM ha hsum).bind
  intro data hdata
  replace hdata : data.denote M 0 = y.map fun v => (a.quantize v : ℝ) := by
    rw [hdata]
    refine (Tensor.map_map _ _ _).trans ?_
    simp only [Affine.quantize, IntRange.clamp, Int.cast_min, Int.cast_max]
  refine Returns.bind (Q := fun _ => True) (returns_getElementType trivial) fun _ _ => ?_
  refine returns_ite (fun _ => ?_) fun _ => returns_pure hdata
  exact returns_converted hM hdata fun i _ => storage_holds ha (a.range.contains_clamp _)

end Runs

/-! ## Arguments and nodes -/

/-- Every operand that has a value is bound to a node that denotes it. -/
def NgraphNodes.Denote (nodes : NgraphNodes) (M : Meaning ℝ) (env : Environment (Tensor ℝ)) :
    Prop :=
  Environment.Simulates (fun (output : Output) x => output.2 = 0 ∧ output.1.denote M 0 = x)
    nodes.mOutputAtOperandIndex env

/-- What NNAPI gives the operation. -/
noncomputable def OperationsBase.arguments (self : OperationsBase)
    (env : Environment (Tensor ℝ)) : Arguments :=
  self.sModelInfo.arguments (self.sModelInfo.getOperation self.mNnapiOperationIndex) env

/-- The arguments are what the operation reads. -/
structure OperationsBase.Meets (base : OperationsBase) (ng : Ngraph) (M : Meaning ℝ)
    (nodes : NgraphNodes) (g : Arguments) : Prop where
  count : g.count = base.inputsSize
  operand : g.operand = base.getInputOperand
  present : ∀ k x, g.stored k = some x → k < base.inputsSize
  stored : ∀ k x, g.stored k = some x →
    Returns (answer ng) nodes (base.getInputNode k false) fun node => node.denote M 0 = x
  tensor : ∀ k x, g.tensor k = some x → base.InputDenotes ng M nodes k x
  number : ∀ T k v, g.number T k = some v →
    k < base.inputsSize ∧ base.isInputConst k = true ∧
      base.sModelInfo.scalarValue T (base.inputIndex k) = v
  numbers : ∀ T k l, g.numbers T k = some l →
    base.sModelInfo.vectorValue T (base.inputIndex k) = l

section Arguments

variable {M : Meaning ℝ} {ng : Ngraph} {nodes : NgraphNodes} {self : OperationsBase}
variable {env : Environment (Tensor ℝ)} {g : Arguments} {k : Nat} {x : Tensor ℝ}

/-- What is loaded, as one of two cases. -/
theorem load_eq_some {o : Operand} {q : Tensor ℝ} (h : o.load q = some x) :
    (o.type.isQuantized = false ∧ x = q) ∨ (o.type.isQuantized = true ∧ ∃ a, o.affine = some a ∧
      x = q.map fun v => (v - a.zeroPoint) * a.scale) := by
  unfold Operand.load at h
  split at h
  · next hquantized =>
    obtain ⟨a, ha, hx⟩ := Option.map_eq_some_iff.mp h
    exact .inr ⟨hquantized, a, ha, hx.symm⟩
  · next hquantized => exact .inl ⟨by simpa using hquantized, (Option.some.inj h).symm⟩

/-- The end of `getInputNode`: a quantized tensor is dequantized. -/
theorem returns_loadInput (hM : M.Computable) {q : Tensor ℝ}
    (h : (self.getInputOperand k).load q = some x) {node : Node} (hnode : node.denote M 0 = q) :
    Returns (answer ng) nodes
      (if (true && (self.sModelInfo.getOperandType (self.inputIndex k)).isQuantized) = true then
        self.dequantizeNode node (self.inputIndex k) .f32
      else pure node)
      fun node => node.denote M 0 = x := by
  rw [Bool.true_and]
  rcases load_eq_some h with ⟨hplain, rfl⟩ | ⟨hquantized, a, ha, rfl⟩
  · have htype : (self.sModelInfo.getOperandType (self.inputIndex k)).isQuantized = false := hplain
    rw [if_neg (by simp [htype])]
    exact returns_pure hnode
  · have htype : (self.sModelInfo.getOperandType (self.inputIndex k)).isQuantized = true :=
      hquantized
    rw [if_pos htype, ← hnode]
    exact returns_loaded hM ha node .f32

/-- A constant of the model. -/
theorem returns_constantValue (hM : M.Computable) {i : Nat} {q : Tensor ℝ}
    (h : self.sModelInfo.constantValue i = some q) :
    ∃ c, (self.sModelInfo.getOperandType i).constElement = some c ∧
      ∀ {Q : Node → Prop} {p : Node → Gen Node},
        (∀ node, node.denote M 0 = q → Returns (answer ng) nodes (p node) Q) →
        Returns (answer ng) nodes (do
          let operandValues ← self.sModelInfo.getConstVecOperand c.2 i
          let input ← createConstNode c.1 (self.sModelInfo.getOperand i).dimensions
            (operandValues.map c.2.scalar)
          p input) Q := by
  unfold NnapiModelInfo.constantValue at h
  obtain ⟨c, hc, h⟩ := Option.bind_eq_some_iff.mp h
  refine ⟨c, hc, fun {Q p} hp => ?_⟩
  dsimp only at h
  split at h
  · next hvalid =>
    obtain rfl := Option.some.inj h
    apply returns_getConstVecOperand.bind
    intro values hvalues
    subst hvalues
    refine Returns.bind (Q := fun node => node.denote M 0 = _) (returns_const ?_) hp
    rw [Node.denote, Node.denoteAll, hM.number _ _ _ hvalid.1 hvalid.2]
  · cases h

/-- `getInputNode` returns the stored tensor, or the numbers it stands for. -/
theorem returns_getInputNode (hM : M.Computable) (hnodes : nodes.Denote M env)
    {q : Tensor ℝ} (hq : self.sModelInfo.storedValue env (self.inputIndex k) = some q) :
    Returns (answer ng) nodes (self.getInputNode k false) (fun node => node.denote M 0 = q) ∧
      ∀ x, (self.getInputOperand k).load q = some x →
        Returns (answer ng) nodes (self.getInputNode k) fun node => node.denote M 0 = x := by
  unfold NnapiModelInfo.storedValue at hq
  unfold OperationsBase.getInputNode
  cases hconst : self.sModelInfo.isOperandLifeTimeConst (self.inputIndex k) with
  | true =>
      rw [hconst, if_pos rfl] at hq
      obtain ⟨c, hc, hreturns⟩ := @returns_constantValue M ng nodes self hM _ q hq
      simp only [hconst, hc, if_true, Bool.false_and, Bool.false_eq_true, if_false]
      constructor
      · exact hreturns fun node hnode => returns_pure hnode
      · exact fun x hx => hreturns fun node hnode => returns_loadInput hM hx hnode
  | false =>
      rw [hconst, if_neg Bool.false_ne_true] at hq
      obtain ⟨⟨node, -⟩, hbound, rfl, hnode⟩ := hnodes _ _ hq
      simp only [hconst, Bool.false_and, Bool.false_eq_true, if_false]
      have hget : Returns (answer ng) nodes (issue (.getOperationOutput (self.inputIndex k)))
          (· = (node, 0)) := by
        apply returns_getOperationOutput
        rw [NgraphNodes.getOperationOutput, hbound]
        rfl
      constructor
      · refine hget.bind fun output houtput => ?_
        subst houtput
        exact returns_pure hnode
      · refine fun x hx => hget.bind fun output houtput => ?_
        subst houtput
        exact returns_loadInput hM hx hnode

/-- A position that is there holds the input of that index. -/
theorem inputIndex_of_getElem? {i : Nat}
    (h : (self.sModelInfo.getOperation self.mNnapiOperationIndex).inputs[k]? = some i) :
    k < self.inputsSize ∧ self.inputIndex k = i := by
  obtain ⟨hk, hi⟩ := List.getElem?_eq_some_iff.mp h
  refine ⟨hk, ?_⟩
  unfold OperationsBase.inputIndex NnapiModelInfo.getOperationInput
  rw [List.getD_eq_getElem _ _ hk, hi]

/-- An operation reads the arguments it is given. -/
theorem arguments_meet (hM : M.Computable) (hnodes : nodes.Denote M env) :
    self.Meets ng M nodes (self.arguments env) where
  count := rfl
  operand := rfl
  present k x h := by
    obtain ⟨i, hi, -⟩ := Option.bind_eq_some_iff.mp h
    exact (inputIndex_of_getElem? hi).1
  stored k x h := by
    obtain ⟨i, hi, h⟩ := Option.bind_eq_some_iff.mp h
    rw [← (inputIndex_of_getElem? hi).2] at h
    exact (returns_getInputNode hM hnodes h).1
  tensor k x h := by
    obtain ⟨q, hq, hx⟩ := Option.bind_eq_some_iff.mp h
    obtain ⟨i, hi, hq⟩ := Option.bind_eq_some_iff.mp hq
    rw [← (inputIndex_of_getElem? hi).2] at hq
    exact (returns_getInputNode hM hnodes hq).2 x hx
  number T k v h := by
    obtain ⟨i, hi, h⟩ := Option.bind_eq_some_iff.mp h
    obtain ⟨hk, rfl⟩ := inputIndex_of_getElem? hi
    split at h
    · next hconst => exact ⟨hk, hconst, Option.some.inj h⟩
    · cases h
  numbers T k l h := by
    obtain ⟨i, hi, h⟩ := Option.bind_eq_some_iff.mp h
    obtain ⟨hk, rfl⟩ := inputIndex_of_getElem? hi
    split at h
    · exact Option.some.inj h
    · cases h

/-- A scalar parameter is read from the model. -/
theorem OperationsBase.Meets.parse (hg : self.Meets ng M nodes g) {T : CType} {v : Int}
    (hv : g.number T k = some v) :
    Returns (answer ng) nodes (self.parseOperationInput T k) (· = v) := by
  rw [← (hg.number T k v hv).2.2]
  exact returns_parse

/-- A vector parameter is read from the model. -/
theorem OperationsBase.Meets.parseVector (hg : self.Meets ng M nodes g) {T : CType} {l : List Int}
    (hl : g.numbers T k = some l) :
    Returns (answer ng) nodes (self.getConstVecInput T k) (· = l) := by
  rw [← hg.numbers T k l hl]
  exact returns_getConstVecOperand

/-- An activation code, which is read unsigned. -/
theorem OperationsBase.Meets.activation (hg : self.Meets ng M nodes g) {code : Int}
    (hcode : g.number .int32 k = some code) :
    Returns (answer ng) nodes (self.parseOperationInput .uint32 k) (toInt32 · = code) := by
  refine returns_parse.mono fun v hv => ?_
  rw [hv, toInt32_scalarValue, (hg.number .int32 k code hcode).2.2]

end Arguments

end NnHal
