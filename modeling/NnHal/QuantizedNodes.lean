import NnHal.Elements

/-!
# Quantized operands

`QuantizeNode` builds the nodes that store numbers as integers of an operand's
range, `DequantizeNode` those that give the numbers back.  The first is the
machine's quantization: its zero point is added in 32 bits.
-/

namespace NnHal

open Command Tensors Quantization

/-! ## Affine operands -/

/-- The range of a type with one scale and one zero point. -/
def OperandType.affineRange : OperandType → Option IntRange
  | .tensorQuant8Asymm => ElementType.range .u8
  | .tensorQuant8Symm | .tensorQuant8AsymmSigned => ElementType.range .i8
  | .tensorQuant16Symm => ElementType.range .i16
  | .tensorQuant16Asymm => ElementType.range .u16
  | _ => none

/-- The element type of its integers. -/
def OperandType.storage : OperandType → ElementType
  | .tensorQuant8Asymm => .u8
  | .tensorQuant8Symm | .tensorQuant8AsymmSigned => .i8
  | .tensorQuant16Symm => .i16
  | .tensorQuant16Asymm => .u16
  | _ => .undefined

/-- The types whose zero point is zero. -/
def OperandType.symmetric : OperandType → Bool
  | .tensorQuant8Symm | .tensorQuant16Symm => true
  | _ => false

/-- The operand stores numbers in this way. -/
structure Operand.Stores (o : Operand) (a : Affine Rat) : Prop where
  range : o.type.affineRange = some a.range
  scale : FloatFormat.binary32.value o.scale = a.scale
  zeroPoint : o.zeroPoint = a.zeroPoint
  symmetric : o.type.symmetric = true → a.zeroPoint = 0

section Affine

variable {o : Operand} {a : Affine Rat}

/-- The ranges of the types. -/
theorem OperandType.affineRange_cases {type : OperandType} {range : IntRange}
    (h : type.affineRange = some range) :
    type.storage.range = some range ∧ range.low < range.high ∧ -2 ^ 29 ≤ range.low ∧
      range.high ≤ 2 ^ 29 := by
  unfold OperandType.affineRange at h
  split at h
  · obtain rfl := Option.some.inj h
    exact ⟨rfl, by decide, by decide, by decide⟩
  · obtain rfl := Option.some.inj h
    exact ⟨rfl, by decide, by decide, by decide⟩
  · obtain rfl := Option.some.inj h
    exact ⟨rfl, by decide, by decide, by decide⟩
  · obtain rfl := Option.some.inj h
    exact ⟨rfl, by decide, by decide, by decide⟩
  · obtain rfl := Option.some.inj h
    exact ⟨rfl, by decide, by decide, by decide⟩
  · cases h

theorem Operand.Stores.narrow (h : o.Stores a) : a.Narrow :=
  (OperandType.affineRange_cases h.range).2

theorem Operand.Stores.storage (h : o.Stores a) : o.type.storage.range = some a.range :=
  (OperandType.affineRange_cases h.range).1

end Affine

/-! ## The nodes -/

section Nodes

variable {M : Meaning Element} {conv : Conversion} {ng : Ngraph} {nodes : NgraphNodes}
variable {self : OperationsBase} {a : Affine Rat} {index : Nat}

/-- A node converted to `f32`, unless it is `f32` already. -/
theorem returns_toFloat (hM : M.Computes conv) (hng : ng.Types M) (input : Node) :
    Returns (answer ng) nodes
      (if ng.getElementType input ≠ .f32 then makeShared (.convert .f32) [input] else pure input)
      fun node => node.denote M 0 = retyped .f32 (fun v => v) (input.denote M 0) := by
  refine returns_ite (fun _ => returns_make ?_) fun hfloat => returns_pure ?_
  · have hconvert := hM.convert .f32 (input.denote M 0)
    have hexact : conv.apply .f32 = fun v => v := by
      funext v
      exact conv.float .f32 v (.inl rfl)
    rw [hexact] at hconvert
    exact hconvert
  · have htyped : Typed .f32 (input.denote M 0) := by
      have htypes := hng input
      rwa [not_not.mp hfloat] at htypes
    exact htyped.retyped_id.symm

/-- The clamp of `QuantizeNode`. -/
theorem returns_quantizeClamp (hM : M.Computes conv)
    (ho : (self.sModelInfo.getOperand index).Stores a) {sum : Node}
    (hsum : Typed .i32 (sum.denote M 0)) :
    Returns (answer ng) nodes
      (match self.sModelInfo.getOperandType index with
      | .tensorQuant8Asymm => makeShared (.clamp (.int 0) (.int 255)) [sum]
      | .tensorQuant8Symm | .tensorQuant8AsymmSigned =>
          makeShared (.clamp (.int (-128)) (.int 127)) [sum]
      | .tensorQuant16Symm => makeShared (.clamp (.int (-32768)) (.int 32767)) [sum]
      | .tensorQuant16Asymm => makeShared (.clamp (.int 0) (.int 65535)) [sum]
      | _ => deref none)
      fun node => node.denote M 0 =
        retyped .i32 (fun v => min (max v a.range.low) a.range.high) (sum.denote M 0) := by
  have hrange := ho.range
  have htype : self.sModelInfo.getOperandType index = (self.sModelInfo.getOperand index).type := rfl
  have hclamp : ∀ range : IntRange, some range = some a.range →
      Returns (answer ng) nodes (makeShared (.clamp (.int range.low) (.int range.high)) [sum])
        fun node => node.denote M 0 =
          retyped .i32 (fun v => min (max v a.range.low) a.range.high) (sum.denote M 0) := by
    intro range heq
    obtain rfl := Option.some.inj heq
    exact returns_make (hM.clamp .i32 a.range.low a.range.high (sum.denote M 0) hsum)
  rw [htype]
  cases hcase : (self.sModelInfo.getOperand index).type <;> rw [hcase] at hrange
  case tensorQuant8Asymm => exact hclamp _ hrange
  case tensorQuant8Symm => exact hclamp _ hrange
  case tensorQuant8AsymmSigned => exact hclamp _ hrange
  case tensorQuant16Symm => exact hclamp _ hrange
  case tensorQuant16Asymm => exact hclamp _ hrange
  all_goals cases hrange

/-- `QuantizeNode` stores every entry of its input as the machine does, in the type
it is asked for. -/
theorem returns_quantizeNode (hM : M.Computes conv) (hng : ng.Types M)
    (ho : (self.sModelInfo.getOperand index).Stores a) (input : Node) (type : ElementType) :
    Returns (answer ng) nodes (self.quantizeNode input index type) fun node =>
      node.denote M 0 =
        retyped type (fun v => conv.apply type (a.machineQuantize v)) (input.denote M 0) := by
  have hzero : int32Range.Contains a.zeroPoint := by
    rcases ho.narrow with ⟨-, hlow, hhigh⟩
    have hmem := a.contains_zeroPoint
    simp only [IntRange.Contains, int32Range] at hmem ⊢
    omega
  have hvalue : ∀ v : Int, (Scalar.int v).value = (v : Rat) := fun _ => rfl
  unfold OperationsBase.quantizeNode
  refine Returns.bind (Q := fun node => node.denote M 0 = scalarTensor .f32 a.scale)
    (returns_const ?_) fun scale hscale => ?_
  · rw [← ho.scale]
    exact hM.scalar (represents_float rfl _)
  refine Returns.bind (Q := fun node => node.denote M 0 = scalarTensor .i32 a.zeroPoint)
    (returns_const ?_) fun zeroPoint hzeroPoint => ?_
  · rw [NnapiModelInfo.getOperandZeroPoint, ho.zeroPoint, hM.scalar, hvalue]
    exact represents_integer rfl hzero
  refine Returns.bind (Q := (· = ng.getElementType input)) (returns_getElementType rfl) ?_
  intro _ heq
  subst heq
  apply (returns_toFloat hM hng input).bind
  intro input' hinput
  refine Returns.bind (Q := fun node => node.denote M 0 =
    retyped .f32 (fun v => v / a.scale) (input.denote M 0)) (returns_make ?_) fun div hdiv => ?_
  · rw [Node.denote_mk_two, hinput, hscale, hM.divide _ _ (typed_retyped _) (typed_scalarTensor _),
      broadcast_retyped_scalar]
    rfl
  refine Returns.bind (Q := fun node => node.denote M 0 =
    retyped .f32 (fun v => roundHalfEven (v / a.scale)) (input.denote M 0)) (returns_make ?_)
    fun round hround => ?_
  · rw [Node.denote_mk_one, hdiv, hM.round _ (typed_retyped _), retyped_retyped]
  refine Returns.bind (Q := fun node => node.denote M 0 =
    retyped .i32 (fun v => int32Range.clamp (roundHalfEven (v / a.scale))) (input.denote M 0))
    (returns_make ?_) fun convertRound hconvert => ?_
  · rw [Node.denote_mk_one, hround, hM.convert, retyped_retyped]
    simp only [conv.int32, truncate_intCast]
  refine Returns.bind (Q := fun node => node.denote M 0 =
    retyped .i32 (fun v => int32Range.wrap (a.machineSum v)) (input.denote M 0))
    (returns_make ?_) fun sum hsum => ?_
  · rw [Node.denote_mk_two, hconvert, hzeroPoint,
      hM.add .i32 _ _ (typed_retyped _) (typed_scalarTensor _), broadcast_retyped_scalar]
    have hwrap : ∀ n : Int, ElementType.wrap .i32 (n : Rat) = int32Range.wrap n :=
      fun n => wrap_integer rfl n
    simp only [← Int.cast_add, hwrap]
    rfl
  have htyped : Typed .i32 (sum.denote M 0) := by
    rw [hsum]
    exact typed_retyped _
  apply (returns_quantizeClamp hM ho htyped).bind
  intro data hdata
  replace hdata : data.denote M 0 =
      retyped .i32 (fun v => a.machineQuantize v) (input.denote M 0) := by
    rw [hdata, hsum, retyped_retyped]
    simp only [Affine.machineQuantize, IntRange.clamp, Int.cast_min, Int.cast_max]
  refine Returns.bind (Q := (· = ng.getElementType data)) (returns_getElementType rfl) ?_
  intro _ heq
  subst heq
  refine returns_ite (fun _ => returns_make ?_) fun hsame => returns_pure ?_
  · rw [Node.denote_mk_one, hdata, hM.convert, retyped_retyped]
  · -- there is an entry only when the type asked for is `i32`
    have htypes := hng data
    rw [not_not.mp hsame] at htypes
    rw [hdata] at htypes ⊢
    apply Tensor.map_congr
    intro i hin
    have hentry := htypes i hin
    rw [get_retyped hin] at hentry
    obtain rfl : ElementType.i32 = type := hentry
    have hmem : int32Range.Contains (a.machineQuantize (((input.denote M 0).get i).value)) := by
      rcases ho.narrow with ⟨-, hlow, hhigh⟩
      have hmem := a.contains_machineQuantize (((input.denote M 0).get i).value)
      simp only [IntRange.Contains, int32Range] at hmem ⊢
      omega
    beta_reduce
    rw [conv.represented .i32 int32Range rfl _ hmem]

/-- The last step of `DequantizeNode`: a conversion to `f16` where that is asked
for. -/
def floatType (type : ElementType) : ElementType := if type = .f16 then .f16 else .f32

theorem returns_dequantized (hM : M.Computes conv) {x : Tensor Element} {f : Rat → Rat}
    {type : ElementType} {node : Node} (hnode : node.denote M 0 = retyped .f32 f x) :
    Returns (answer ng) nodes
      (if type = .f16 then makeShared (.convert type) [node] else pure node)
      fun node => node.denote M 0 = retyped (floatType type) f x := by
  unfold floatType
  refine returns_ite (fun hhalf => returns_make ?_) fun hfloat => returns_pure ?_
  · subst hhalf
    rw [Node.denote_mk_one, hnode, hM.convert, retyped_retyped, if_pos rfl]
    simp only [conv.float .f16 _ (.inr rfl)]
  · rw [if_neg hfloat, hnode]

/-- The zero point is subtracted for the types that have one. -/
theorem returns_subtractZeroPoint (hM : M.Computes conv)
    (ho : (self.sModelInfo.getOperand index).Stores a) {x : Tensor Element}
    {input zeroPoint : Node} (hinput : input.denote M 0 = retyped .f32 (fun v => v) x)
    (hzero : zeroPoint.denote M 0 = scalarTensor .f32 a.zeroPoint) :
    Returns (answer ng) nodes
      (if (self.sModelInfo.getOperand index).type = .tensorQuant8Asymm ∨
          (self.sModelInfo.getOperand index).type = .tensorQuant16Asymm ∨
          (self.sModelInfo.getOperand index).type = .tensorQuant8AsymmSigned then
        makeShared .subtract [input, zeroPoint]
      else pure input)
      fun node => node.denote M 0 = retyped .f32 (fun v => v - a.zeroPoint) x := by
  refine returns_ite (fun _ => returns_make ?_) fun hsymm => returns_pure ?_
  · rw [Node.denote_mk_two, hinput, hzero,
      hM.subtract .f32 _ _ (typed_retyped _) (typed_scalarTensor _), broadcast_retyped_scalar]
    rfl
  · have hrange := ho.range
    have hzeroPoint : a.zeroPoint = 0 := by
      apply ho.symmetric
      cases hcase : (self.sModelInfo.getOperand index).type <;> rw [hcase] at hrange hsymm
      case tensorQuant8Symm => rfl
      case tensorQuant16Symm => rfl
      case tensorQuant8Asymm => exact absurd (.inl rfl) hsymm
      case tensorQuant16Asymm => exact absurd (.inr (.inl rfl)) hsymm
      case tensorQuant8AsymmSigned => exact absurd (.inr (.inr rfl)) hsymm
      all_goals cases hrange
    rw [hinput, hzeroPoint]
    simp only [Int.cast_zero, sub_zero]

/-- `DequantizeNode` gives the number every entry of its input stands for. -/
theorem returns_dequantizeNode (hM : M.Computes conv) (hng : ng.Types M)
    (ho : (self.sModelInfo.getOperand index).Stores a) (input : Node) (type : ElementType) :
    Returns (answer ng) nodes (self.dequantizeNode input index type) fun node =>
      node.denote M 0 =
        retyped (floatType type) (fun v => (v - a.zeroPoint) * a.scale) (input.denote M 0) := by
  have hchannel : ¬ (self.sModelInfo.getOperand index).type = .tensorQuant8SymmPerChannel := by
    intro hcase
    have hrange := ho.range
    rw [hcase] at hrange
    cases hrange
  unfold OperationsBase.dequantizeNode
  refine Returns.bind (Q := (· = ng.getElementType input)) (returns_getElementType rfl) ?_
  intro _ heq
  subst heq
  apply (returns_toFloat hM hng input).bind
  intro input' hinput
  refine Returns.bind (Q := fun node => node.denote M 0 =
    retyped .f32 (fun v => (v - a.zeroPoint) * a.scale) (input.denote M 0)) ?_
    fun node hnode => returns_dequantized hM hnode
  rw [if_neg hchannel]
  refine Returns.bind (Q := fun node => node.denote M 0 = scalarTensor .f32 a.scale)
    (returns_const ?_) fun scale hscale => ?_
  · rw [← ho.scale]
    exact hM.scalar (represents_float rfl _)
  refine Returns.bind (Q := fun node => node.denote M 0 = scalarTensor .f32 a.zeroPoint)
    (returns_const ?_) fun zeroPoint hzero => ?_
  · rw [NnapiModelInfo.getOperandZeroPoint, ho.zeroPoint, hM.scalar (represents_float rfl _)]
    rfl
  refine (returns_subtractZeroPoint hM ho hinput hzero).bind fun input'' hinput' => returns_make ?_
  rw [Node.denote_mk_two, hinput', hscale,
    hM.multiply .f32 _ _ (typed_retyped _) (typed_scalarTensor _), broadcast_retyped_scalar]
  rfl

/-! ## What is stored -/

/-- The number at an index of a node's tensor. -/
def Node.valueAt (M : Meaning Element) (node : Node) (i : List Int) : Rat :=
  ((node.denote M 0).get i).value

/-- The index is one of the node's tensor. -/
def Node.HasIndex (M : Meaning Element) (node : Node) (i : List Int) : Prop :=
  Inside (node.denote M 0).shape i

theorem Node.hasIndex_of_retyped {input node : Node} {type : ElementType} {f : Rat → Rat}
    (h : node.denote M 0 = retyped type f (input.denote M 0)) (i : List Int) :
    node.HasIndex M i ↔ input.HasIndex M i := by
  unfold Node.HasIndex
  rw [h, shape_retyped]

theorem Node.valueAt_of_retyped {input node : Node} {type : ElementType} {f : Rat → Rat}
    (h : node.denote M 0 = retyped type f (input.denote M 0)) {i : List Int}
    (hi : input.HasIndex M i) : node.valueAt M i = f (input.valueAt M i) := by
  unfold Node.valueAt
  rw [h, get_retyped hi]

/-- In the operand's own storage type nothing is lost. -/
theorem stored_machineQuantize {o : Operand} (ho : o.Stores a) (v : Rat) :
    conv.apply o.type.storage (a.machineQuantize v) = a.machineQuantize v :=
  conv.represented _ _ ho.storage _ (a.contains_machineQuantize v)

/-- A run of `QuantizeNode` makes the node of the input, in the operand's storage
type. -/
def OperationsBase.MakesStored (self : OperationsBase) (ng : Ngraph) (nodes : NgraphNodes)
    (index : Nat) (input node : Node) : Prop :=
  (exec (answer ng) (self.quantizeNode input index
    (self.sModelInfo.getOperandType index).storage) nodes).outcome = .ok node

/-- A run of `DequantizeNode` makes the node of the stored one. -/
def OperationsBase.MakesRestored (self : OperationsBase) (ng : Ngraph) (nodes : NgraphNodes)
    (index : Nat) (type : ElementType) (stored node : Node) : Prop :=
  (exec (answer ng) (self.dequantizeNode stored index type) nodes).outcome = .ok node

theorem OperationsBase.MakesStored.valueAt (hM : M.Computes conv) (hng : ng.Types M)
    (ho : (self.sModelInfo.getOperand index).Stores a) {input node : Node}
    (h : self.MakesStored ng nodes index input node) {i : List Int} (hi : input.HasIndex M i) :
    node.valueAt M i = a.machineQuantize (input.valueAt M i) := by
  have hdenote := (returns_quantizeNode hM hng ho input _ node h).2
  rw [Node.valueAt_of_retyped hdenote hi]
  exact stored_machineQuantize ho _

theorem OperationsBase.MakesRestored.valueAt (hM : M.Computes conv) (hng : ng.Types M)
    (ho : (self.sModelInfo.getOperand index).Stores a) {stored node : Node}
    {type : ElementType} (h : self.MakesRestored ng nodes index type stored node) {i : List Int}
    (hi : stored.HasIndex M i) :
    node.HasIndex M i ∧ node.valueAt M i = (stored.valueAt M i - a.zeroPoint) * a.scale := by
  have hdenote := (returns_dequantizeNode hM hng ho stored type node h).2
  exact ⟨(Node.hasIndex_of_retyped hdenote i).mpr hi, Node.valueAt_of_retyped hdenote hi⟩

/-- **What `QuantizeNode` stores.**  For every operand with a range, a scale and a
zero point, and every entry of every node: what is stored is the rounded quotient
plus the zero point, clamped to the range, exactly when the zero point does not take
the quotient out of 32 bits.  Among such entries it is monotone, and what
`DequantizeNode` makes of an integer of the range is stored as that integer. -/
theorem quantizeNode_quantizes_iff (hM : M.Computes conv) (hng : ng.Types M)
    (ho : (self.sModelInfo.getOperand index).Stores a) {input node : Node}
    (hnode : self.MakesStored ng nodes index input node) :
    (∀ i, input.HasIndex M i →
      (node.valueAt M i = a.quantize (input.valueAt M i) ↔ a.Fits (input.valueAt M i))) ∧
    (∀ i j, input.HasIndex M i → input.HasIndex M j →
      a.Fits (input.valueAt M i) → a.Fits (input.valueAt M j) →
      input.valueAt M i ≤ input.valueAt M j → node.valueAt M i ≤ node.valueAt M j) ∧
    ∀ type stored, self.MakesRestored ng nodes index type stored input →
      ∀ i, stored.HasIndex M i → ∀ q : Int, a.range.Contains q → stored.valueAt M i = q →
        node.valueAt M i = q := by
  have hentry : ∀ i, input.HasIndex M i →
      node.valueAt M i = a.machineQuantize (input.valueAt M i) :=
    fun i hi => hnode.valueAt hM hng ho hi
  have hexact : ∀ v, a.machineQuantize v = a.quantize v ↔ a.Fits v := by
    intro v
    rw [Affine.machineQuantize_eq_iff ho.narrow, Affine.contains_machineSum_iff ho.narrow]
  refine ⟨?_, ?_, ?_⟩
  · intro i hi
    rw [hentry i hi, Int.cast_inj, hexact]
  · intro i j hi hj hfits hfits' hle
    rw [hentry i hi, hentry j hj, Int.cast_le, (hexact _).mpr hfits, (hexact _).mpr hfits']
    exact a.quantize_mono hle
  · intro type stored hrestored i hi q hq hstored
    obtain ⟨hindex, hvalue⟩ := hrestored.valueAt hM hng ho hi
    have hdequantize : input.valueAt M i = a.dequantize q := by
      rw [hvalue, hstored]
      rfl
    rw [hentry i hindex, hdequantize, Int.cast_inj,
      (hexact _).mpr (Affine.fits_dequantize ho.narrow hq),
      Affine.quantize_dequantize hq]

end Nodes

/-! ### A zero point of one -/

/-- An operation whose operand 0 has 8 bits, the scale one and the zero point one. -/
def unitQuantized : OperationsBase where
  sModelInfo :=
    { mModel :=
        { operands :=
            [{ type := .tensorQuant8Asymm, dimensions := [1], scale := 0x3f800000, zeroPoint := 1
               lifetime := .subgraphOutput }]
          operations := []
          inputIndexes := []
          outputIndexes := [0] } }
  sPluginType := .cpu
  mNnapiOperationIndex := 0
  mDefaultOutputIndex := 0

theorem zero_le_byte : (0 : Int) ≤ 255 := by decide

theorem one_positive : (0 : Rat) < 1 := by norm_num

def unitAffine : Affine Rat where
  scale := 1
  zeroPoint := 1
  range := ⟨0, 255, zero_le_byte⟩
  scale_pos := one_positive
  contains_zeroPoint := by decide

theorem unitQuantized_stores :
    (unitQuantized.sModelInfo.getOperand 0).Stores unitAffine where
  range := rfl
  scale := by
    have hone : FloatFormat.binary32.value 0x3f800000 = 1 := by
      norm_num [FloatFormat.value, FloatFormat.binary32]
    exact hone
  zeroPoint := rfl
  symmetric := nofun

/-- A parameter with one number. -/
def oneNumber (v : Rat) (_ : Nat) : Tensor Element := Tensor.ofFn [1] fun _ => ⟨.f32, v⟩

def numberNode : Node := .mk (.parameter 0 .f32 [1]) []

theorem numberNode_value (v : Rat) :
    numberNode.HasIndex (exact (oneNumber v)) [0] ∧
      numberNode.valueAt (exact (oneNumber v)) [0] = v := by
  have hin : Inside [1] [0] := by decide
  exact ⟨hin, rfl⟩

/-- `QuantizeNode` returns a node for it. -/
theorem unitQuantized_makesStored (v : Rat) :
    ∃ node, unitQuantized.MakesStored (.exact (oneNumber v)) {} 0 numberNode node :=
  builds_of_follows quiet_quantizeNode List.not_mem_nil fun _ _ => rfl

/-- Two and a half is stored as three. -/
theorem quantizeNode_quantizes_iff_unit :
    ∃ node, unitQuantized.MakesStored (.exact (oneNumber (5 / 2))) {} 0 numberNode node ∧
      node.valueAt (exact (oneNumber (5 / 2))) [0] = 3 := by
  obtain ⟨node, hnode⟩ := unitQuantized_makesStored (5 / 2)
  obtain ⟨hindex, hvalue⟩ := numberNode_value (5 / 2)
  have hentry := (quantizeNode_quantizes_iff exact_computes Ngraph.exact_types
    unitQuantized_stores hnode).1 [0] hindex
  rw [hvalue] at hentry
  have hround : roundHalfEven (5 / 2 / unitAffine.scale) = 2 := by
    norm_num [unitAffine, roundHalfEven]
  have hfits : unitAffine.Fits (5 / 2) := by
    unfold Affine.Fits
    rw [hround]
    decide
  have hquantize : unitAffine.quantize (5 / 2) = 3 := by
    unfold Affine.quantize
    rw [hround]
    rfl
  refine ⟨node, hnode, ?_⟩
  rw [hentry.mpr hfits, hquantize]
  rfl

/-- The number of `2 ^ 31` scales is not stored as the end of the range: its sum
with the zero point comes in at the other end of 32 bits. -/
theorem quantizeNode_wraps :
    ¬ ∀ (self : OperationsBase) (index : Nat) (a : Affine Rat) (M : Meaning Element)
      (conv : Conversion) (ng : Ngraph) (nodes : NgraphNodes) (input node : Node),
      M.Computes conv → ng.Types M → (self.sModelInfo.getOperand index).Stores a →
      self.MakesStored ng nodes index input node →
      ∀ i, input.HasIndex M i → node.valueAt M i = a.quantize (input.valueAt M i) := by
  intro hall
  obtain ⟨node, hnode⟩ := unitQuantized_makesStored (2 ^ 31)
  obtain ⟨hindex, hvalue⟩ := numberNode_value (2 ^ 31)
  have hclaimed := hall unitQuantized 0 unitAffine _ _ _ {} numberNode node exact_computes
    Ngraph.exact_types unitQuantized_stores hnode [0] hindex
  rw [hnode.valueAt exact_computes Ngraph.exact_types unitQuantized_stores hindex, hvalue]
    at hclaimed
  have hround : roundHalfEven ((2 ^ 31 : Rat) / unitAffine.scale) = 2 ^ 31 := by
    norm_num [unitAffine, roundHalfEven]
  have hmachine : unitAffine.machineQuantize (2 ^ 31) = 0 := by
    unfold Affine.machineQuantize Affine.machineSum
    rw [hround]
    decide
  have hquantize : unitAffine.quantize (2 ^ 31) = 255 := by
    unfold Affine.quantize
    rw [hround]
    rfl
  rw [hmachine, hquantize] at hclaimed
  norm_num at hclaimed

end NnHal
