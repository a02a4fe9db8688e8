import NnHal.ConvolutionMeanings
import NnHal.NnapiLayers
import NnHal.Pooling
import NnHal.ShapeMeanings

/-!
# Layers over the real numbers

The classes of the layers read their parameters at the positions of a signature,
scale a bias that is stored as integers, and go through NCHW and back.  What
they build denotes NNAPI's sums over the taps of a window.
-/

namespace NnHal

open Command Tensors Quantization
open scoped BigOperators

/-! ## The documented operations -/

/-- The window of a pooling along a spatial axis. -/
def PoolAttrs.window (attrs : PoolAttrs) (axis size : Nat) : Window :=
  let stride := attrs.strides.getD axis 1
  match attrs.autoPad with
  | .sameUpper => Window.same stride 1 size (attrs.kernel.getD axis 0)
  | .valid => Window.valid stride 1
  | .explicit | .notset =>
      { stride, dilation := 1
        padHead := attrs.padsBegin.getD axis 0
        padTail := attrs.padsEnd.getD axis 0 }

/-- No window of a pooling is without a cell. -/
def PoolAttrs.Covers (attrs : PoolAttrs) (axis size : Nat) : Prop :=
  PoolParams.Covers (attrs.window axis size) (attrs.kernel.getD axis 0) size

/-- A function of the cells that the windows of a pooling cover. -/
noncomputable def PoolAttrs.pool (attrs : PoolAttrs) (f : List ℝ → ℝ) (h w : Nat)
    (x : Tensor ℝ) : Tensor ℝ :=
  x.pool f (attrs.window 0 h) (attrs.window 1 w) (attrs.kernel.getD 0 0) (attrs.kernel.getD 1 0)

/-- What ngraph's layers make of real tensors. -/
structure Meaning.ComputesLayers (M : Meaning ℝ) : Prop where
  regroup : ∀ (x : Tensor ℝ) (target : List Nat), target.prod = x.shape.prod →
    M (.reshape false) [x, sizes target] 0 = x.reshape target
  matMul : ∀ (x w : Tensor ℝ) {m n k : Nat}, x.shape = [m, k] → w.shape = [n, k] →
    M (.matMul false true) [x, w] 0 = x.mulTransposed w
  convolve : M.Convolves
  groupConvolve : M.GroupConvolves
  avgPool : ∀ (attrs : PoolAttrs) (x : Tensor ℝ) {n c h w : Nat}, x.shape = [n, c, h, w] →
    attrs.Covers 0 h → attrs.Covers 1 w → M (.avgPool attrs true) [x] 0 = attrs.pool average h w x
  maxPool : ∀ (attrs : PoolAttrs) (x : Tensor ℝ) {n c h w : Nat}, x.shape = [n, c, h, w] →
    attrs.Covers 0 h → attrs.Covers 1 w → M (.maxPool attrs) [x] 0 = attrs.pool largest h w x

/-- All operations as ngraph documents them. -/
structure Meaning.Documented (M : Meaning ℝ) : Prop
    extends Meaning.Computable M, Meaning.Rearranges M, Meaning.ComputesLayers M

variable {M : Meaning ℝ} {ng : Ngraph} {nodes : NgraphNodes} {self : OperationsBase}
variable {g : Arguments} {x w y bias : Tensor ℝ}

/-! ## Parameters -/

section Parameters

variable {k first : Nat}

theorem OperationsBase.Meets.int32Input (hg : self.Meets ng M nodes g) (hk : g.Constant k) :
    self.int32Input k = g.integer k := by
  obtain ⟨v, hv⟩ := Option.isSome_iff_exists.mp hk.1
  unfold OperationsBase.int32Input Arguments.integer
  rw [(hg.number .int32 k v hv).2.2, hv]
  rfl

theorem OperationsBase.Meets.optionalInput (hg : self.Meets ng M nodes g)
    (hk : k < g.count → g.Constant k) : self.optionalInput k = g.optionalInteger k := by
  unfold OperationsBase.optionalInput Arguments.optionalInteger
  rw [← hg.count]
  split
  · next hlt => exact hg.int32Input (hk hlt)
  · rfl

theorem OperationsBase.Meets.layoutInput (hg : self.Meets ng M nodes g)
    (hk : k < g.count → g.Constant k) : self.layoutInput k = g.layoutFlag k := by
  unfold OperationsBase.layoutInput Arguments.layoutFlag
  rw [← hg.count]
  by_cases hlt : k < g.count
  · obtain ⟨v, hv⟩ := Option.isSome_iff_exists.mp (hk hlt).2
    rw [(hg.number .uint8 k v hv).2.2, hv]
    rfl
  · simp only [hlt, false_and]

theorem OperationsBase.Meets.checkInput (hg : self.Meets ng M nodes g) (type : OperandType) :
    self.checkInputOperandType k type = decide ((g.operand k).type = type) := by
  rw [hg.operand]
  rfl

/-- The parameters of a convolution are those at the positions of its signature. -/
theorem OperationsBase.Meets.convParams (hg : self.Meets ng M nodes g)
    (hconstant : g.ConstantFrom 3) {explicit : Bool} {extra : Nat}
    (hcount : OperationsBase.strideInput explicit + 2 + extra < g.count) :
    self.convParams explicit extra = g.convParams explicit extra := by
  have hint : ∀ k, 3 ≤ k → k ≤ OperationsBase.strideInput explicit + 2 + extra →
      self.int32Input k = g.integer k :=
    fun k hlow hhigh => hg.int32Input (hconstant k hlow (by omega))
  have hoptional : ∀ k, 3 ≤ k → self.optionalInput k = g.optionalInteger k :=
    fun k hlow => hg.optionalInput (hconstant k hlow)
  have hlayout : ∀ k, 3 ≤ k → self.layoutInput k = g.layoutFlag k :=
    fun k hlow => hg.layoutInput (hconstant k hlow)
  unfold OperationsBase.convParams Arguments.convParams
  unfold OperationsBase.strideInput at hint ⊢
  cases explicit with
  | true =>
      dsimp only [if_true] at hint ⊢
      simp only [if_true] at hint ⊢
      rw [hint 3 (by omega) (by omega), hint 4 (by omega) (by omega), hint 5 (by omega) (by omega),
        hint 6 (by omega) (by omega), hint 7 (by omega) (by omega),
        hint (7 + 1) (by omega) (by omega), hint (7 + 2 + extra) (by omega) (by omega),
        hlayout _ (by omega), hoptional _ (by omega), hoptional _ (by omega)]
  | false =>
      simp only [Bool.false_eq_true, if_false] at hint ⊢
      rw [hint 3 (by omega) (by omega), hint 4 (by omega) (by omega),
        hint (4 + 1) (by omega) (by omega), hint (4 + 2 + extra) (by omega) (by omega),
        hlayout _ (by omega), hoptional _ (by omega), hoptional _ (by omega)]

/-- The operation has one of its two signatures. -/
theorem OperationsBase.Meets.convSignature (hg : self.Meets ng M nodes g) {explicit : Bool}
    {extra : Nat} (h : g.convSignature extra = some explicit) :
    self.ConvSignature extra 3 explicit ∧
      OperationsBase.strideInput explicit + 2 + extra < g.count := by
  have htype := hg.checkInput (k := 7 + extra) .bool
  unfold Arguments.convSignature Arguments.signature at h
  rw [hg.count] at h ⊢
  split at h
  · next hexplicit =>
    obtain ⟨hmin, hmax, hflag⟩ := hexplicit
    obtain rfl := Option.some.inj h
    refine ⟨.explicit hmin hmax ?_, ?_⟩
    · rw [htype]
      exact decide_eq_false (hflag (by omega))
    · simp only [OperationsBase.strideInput, if_true]
      omega
  · split at h
    · next himplicit =>
      obtain ⟨hmin, hmax, hflag⟩ := himplicit
      obtain rfl := Option.some.inj h
      refine ⟨.implicit hmin hmax fun hlt => ?_, ?_⟩
      · rw [htype]
        exact decide_eq_true (hflag hlt)
      · simp only [OperationsBase.strideInput, Bool.false_eq_true, if_false]
        omega
    · cases h

end Parameters

/-! ## The bias -/

section Bias

/-- `DequantizeNode` of integers without a zero point. -/
theorem returns_scaled (hM : M.Computable) {index : Nat}
    (htype : (self.sModelInfo.getOperand index).type = .tensorInt32)
    (hfinite : (Scalar.float32 (self.sModelInfo.getOperand index).scale).Finite) (input : Node) :
    Returns (answer ng) nodes (self.dequantizeNode input index .f32) fun node =>
      node.denote M 0 = (input.denote M 0).map fun v =>
        v * (Scalar.float32 (self.sModelInfo.getOperand index).scale).real := by
  unfold OperationsBase.dequantizeNode
  refine Returns.bind (Q := fun _ => True) (returns_getElementType trivial) fun _ _ => ?_
  apply (returns_asFloat hM).bind
  intro float hfloat
  have hchannel : (self.sModelInfo.getOperand index).type ≠ .tensorQuant8SymmPerChannel := by
    rw [htype]
    exact nofun
  rw [if_neg hchannel]
  refine Returns.bind (Q := fun node => node.denote M 0 = (input.denote M 0).map fun v =>
    v * (Scalar.float32 (self.sModelInfo.getOperand index).scale).real) ?_
    fun node hnode => returns_pure hnode
  apply (returns_number hM .f32 ⟨hfinite, trivial⟩).bind
  intro scale hscale
  have hzeroFinite : (Scalar.toFloat (self.sModelInfo.getOperandZeroPoint index)).Finite := trivial
  apply (returns_number hM .f32 ⟨hzeroFinite, trivial⟩).bind
  intro zeroPoint _
  rw [htype]
  simp only [reduceCtorEq, or_self, if_false]
  refine Returns.bind (returns_pure (Q := fun node => node.denote M 0 = input.denote M 0) hfloat)
    fun shifted hshifted => ?_
  have hfits := broadcastable_nil (input.denote M 0).shape
  rw [← hscale.1] at hfits
  apply (returns_pairwise hM .multiply rfl hshifted rfl (definedOn_total_pair hfits)).mono
  intro node hnode
  rw [hnode, broadcast_number hscale]
  rfl

/-- The bias of a layer, as one of two cases. -/
theorem bias_eq_some (h : g.bias = some bias) :
    (((g.operand 0).type = .tensorFloat32 ∨ (g.operand 0).type = .tensorFloat16) ∧
        g.tensor 2 = some bias) ∨
      (((g.operand 0).type = .tensorQuant8Asymm ∨
          (g.operand 0).type = .tensorQuant8AsymmSigned) ∧
        (g.operand 2).type = .tensorInt32 ∧ (Scalar.float32 (g.operand 2).scale).Finite ∧
          ∃ q, g.tensor 2 = some q ∧
            bias = q.map fun v => v * (Scalar.float32 (g.operand 2).scale).real) := by
  unfold Arguments.bias at h
  split at h
  · next htype => exact .inl ⟨.inl htype, h⟩
  · next htype => exact .inl ⟨.inr htype, h⟩
  · next htype =>
    split at h
    · next hvalid =>
      obtain ⟨q, hq, rfl⟩ := Option.map_eq_some_iff.mp h
      exact .inr ⟨.inl htype, hvalid.1, hvalid.2, q, hq, rfl⟩
    · cases h
  · next htype =>
    split at h
    · next hvalid =>
      obtain ⟨q, hq, rfl⟩ := Option.map_eq_some_iff.mp h
      exact .inr ⟨.inr htype, hvalid.1, hvalid.2, q, hq, rfl⟩
    · cases h
  · cases h

/-- A bias is fetched, and scaled beside quantized tensors. -/
theorem returns_biasNode (hM : M.Computable) (hg : self.Meets ng M nodes g)
    (h : g.bias = some bias) :
    Returns (answer ng) nodes (do
      let biasNode ← self.getInputNode 2
      if self.checkInputOperandType 0 .tensorQuant8Asymm ∨
          self.checkInputOperandType 0 .tensorQuant8AsymmSigned then
        self.dequantizeNode biasNode (self.inputIndex 2) .f32
      else pure biasNode) fun node => node.denote M 0 = bias := by
  rw [hg.checkInput, hg.checkInput]
  rcases bias_eq_some h with ⟨hfloat, hbias⟩ | ⟨hquantized, htype, hfinite, q, hq, rfl⟩
  · apply (hg.tensor 2 bias hbias).bind
    intro biasNode hbiasNode
    rw [if_neg]
    · exact returns_pure hbiasNode
    · rcases hfloat with hfloat | hfloat <;> rw [hfloat] <;> decide
  · apply (hg.tensor 2 q hq).bind
    intro biasNode hbiasNode
    rw [if_pos (by simpa using hquantized)]
    rw [hg.operand] at htype hfinite ⊢
    rw [← hbiasNode]
    exact returns_scaled hM htype hfinite biasNode

/-- The bias of a convolution. -/
theorem OperationsBase.Meets.biasDenotes (hM : M.Computable) (hg : self.Meets ng M nodes g)
    (h : g.bias = some bias) (hw : g.tensor 1 = some w) : self.BiasDenotes ng M nodes bias := by
  have hchannel : self.checkInputOperandType 1 .tensorQuant8SymmPerChannel = false := by
    rw [hg.checkInput]
    apply decide_eq_false
    intro htype
    obtain ⟨q, -, hload⟩ := Option.bind_eq_some_iff.mp hw
    rcases load_eq_some hload with ⟨hplain, -⟩ | ⟨-, a, ha, -⟩
    · rw [htype] at hplain
      cases hplain
    · have hrange := (affine_eq_some ha).1
      rw [htype] at hrange
      cases hrange
  have hreturns := returns_biasNode hM hg h
  unfold OperationsBase.BiasDenotes OperationsBase.convBias
  simp only [hchannel, Bool.false_eq_true, if_false]
  exact hreturns

end Bias

/-! ## The fully connected layer -/

section FullyConnected

/-- The product of the sizes, where it fits 32 bits. -/
theorem getNumberOfElements_of_lt {dims : List Nat} (h : dims.prod < 2 ^ 32) :
    getNumberOfElements dims = dims.prod := by
  have hfold : ∀ (dims : List Nat) (c : Nat), c < 2 ^ 32 →
      dims.foldl (fun count d => count * d % 2 ^ 32) c = c * dims.prod % 2 ^ 32 := by
    intro dims
    induction dims with
    | nil =>
        intro c hc
        rw [List.foldl_nil, List.prod_nil, Nat.mul_one, Nat.mod_eq_of_lt hc]
    | cons d ds ih =>
        intro c _
        rw [List.foldl_cons, ih _ (Nat.mod_lt _ (by decide)), Nat.mod_mul_mod, List.prod_cons,
          Nat.mul_assoc]
  unfold getNumberOfElements
  rw [hfold dims 1 (by decide), Nat.one_mul, Nat.mod_eq_of_lt h]

/-- The rows of the input by those of the weights. -/
theorem returns_multiplyNode (hM : M.Computable) (hl : M.ComputesLayers)
    (hg : self.Meets ng M nodes g) {count width units : Nat} {inputNode weightsNode : Node}
    (hx : inputNode.denote M 0 = x) (hw : weightsNode.denote M 0 = w) (hdeclared : g.Declared 0 x)
    (hrank : 2 ≤ x.shape.length) (hprod : x.shape.prod = count * width)
    (hsmall : x.shape.prod < 2 ^ 31) (hweights : g.Declared 1 w) (hshape : w.shape = [units, width])
    (hpos : 0 < width) :
    Returns (answer ng) nodes (FullyConnected.multiplyNode self inputNode weightsNode) fun node =>
      node.denote M 0 = (x.reshape [count, width]).mulTransposed w := by
  have hinputDims : self.getInputOperandDimensions 0 = x.shape := by
    rw [← hdeclared, hg.operand]
    rfl
  have hweightDims : self.getInputOperandDimensions 1 = [units, width] := by
    rw [← hshape, ← hweights, hg.operand]
    rfl
  have hrows : x.shape.prod / width = count := by rw [hprod, Nat.mul_div_cancel count hpos]
  unfold FullyConnected.multiplyNode
  rw [hinputDims, hweightDims]
  dsimp only
  rw [getNumberOfElements_of_lt (by omega)]
  refine Returns.bind (Q := fun reshapes => reshapes = false → x.shape = [count, width]) ?_
    fun reshapes hreshapes => ?_
  · refine returns_ite (fun _ => returns_pure nofun) fun htwo => ?_
    refine Returns.bind (Q := (· = x.shape.getD 1 0)) (returns_dimAt rfl) fun inputWidth hi => ?_
    refine Returns.bind (Q := (· = width)) (returns_dimAt rfl) fun weightWidth hwidth => ?_
    apply returns_pure
    intro hsame
    obtain ⟨d, e, hde⟩ : ∃ d e, x.shape = [d, e] := List.length_eq_two.mp (by omega)
    have he : e = width := by
      rw [hi, hwidth, hde] at hsame
      simpa using hsame
    rw [hde, he, List.prod_cons, List.prod_singleton] at hprod
    rw [hde, he, Nat.eq_of_mul_eq_mul_right hpos hprod]
  · cases reshapes with
    | true =>
        rw [if_pos rfl]
        refine Returns.bind (Q := (· = width)) (returns_dimAt rfl) fun first hfirst => ?_
        refine Returns.bind (Q := (· = (count : Int))) (returns_divInt ?_) fun rows hcount => ?_
        · rw [hfirst, ← Int.ofNat_tdiv, hrows]
        refine Returns.bind (Q := (· = width)) (returns_dimAt rfl) fun second hsecond => ?_
        subst hcount hsecond
        refine Returns.bind (@returns_vector M ng nodes hM.toTransposes .i32
          [(count : Int), (second : Int)] 2 rfl) fun shapeNode hshapeNode => ?_
        have hsizes : vectorTensor [(count : Int), (second : Int)] = sizes [count, second] :=
          vectorTensor_sizes [count, second]
        refine Returns.bind (Q := fun node => node.denote M 0 = x.reshape [count, second])
          (returns_make ?_) fun reshapeNode hreshape => returns_make ?_
        · rw [Node.denote_mk_two, hx, hshapeNode, hsizes, hl.regroup]
          rw [List.prod_cons, List.prod_singleton, hprod]
        · rw [Node.denote_mk_two, hreshape, hw]
          exact hl.matMul _ _ (Tensor.shape_reshape _ _) hshape
    | false =>
        have hself : x.reshape [count, width] = x := by
          rw [← hreshapes rfl, Tensor.reshape_self]
        rw [if_neg Bool.false_ne_true]
        apply returns_make
        rw [Node.denote_mk_two, hx, hw, hself]
        exact hl.matMul x w (hreshapes rfl) hshape

theorem FullyConnected.createNode_denotes (hM : M.Computable) (hl : M.ComputesLayers)
    (hg : self.Meets ng M nodes g) (h : g.fullyConnected = some y) :
    Returns (answer ng) nodes (FullyConnected.createNode self) fun node =>
      node.denote M 0 = y := by
  obtain ⟨x, hx, h⟩ := Option.bind_eq_some_iff.mp h
  obtain ⟨w, hw, h⟩ := Option.bind_eq_some_iff.mp h
  obtain ⟨bias, hbias, h⟩ := Option.bind_eq_some_iff.mp h
  obtain ⟨code, hcode, h⟩ := Option.bind_eq_some_iff.mp h
  dsimp only at h
  split at h
  · next hvalid =>
    obtain ⟨⟨hdeclared, hrank, hprod, hsmall⟩, ⟨hweights, hshape, hpos, -⟩, hgiven, hbiasDims,
      hbiasShape⟩ := hvalid
    obtain rfl := Option.some.inj h
    generalize w.shape.getD 1 0 = width at hshape hprod hpos ⊢
    generalize w.shape.getD 0 0 = units at hshape hbiasShape
    generalize x.shape.prod / width = count at hprod ⊢
    have hhas : FullyConnected.hasBias self = true := by
      have hlifetime : (self.getInputOperand 2).lifetime ≠ .noValue := by
        rw [← hg.operand]
        exact hgiven
      have hdims : self.getInputOperandDimensions 2 = [units] := by
        rw [← hbiasShape, ← hbiasDims, hg.operand]
        rfl
      have homitted : self.isOmittedInput 2 = false := decide_eq_false hlifetime
      simp [FullyConnected.hasBias, homitted, hdims]
    unfold FullyConnected.createNode
    apply (hg.tensor 0 x hx).bind
    intro inputNode hinput
    apply (hg.tensor 1 w hw).bind
    intro weightsNode hweightsNode
    apply (returns_multiplyNode hM hl hg hinput hweightsNode hdeclared hrank hprod hsmall hweights
      hshape hpos).bind
    intro multiplyNode hmultiply
    refine Returns.bind (Q := fun node => node.denote M 0 = Tensor.broadcast (· + ·)
      ((x.reshape [count, width]).mulTransposed w) bias) ?_ fun addNode hadd => ?_
    · have hfetch : FullyConnected.addNode self multiplyNode = (do
          let biasNode ← (do
            let biasNode ← self.getInputNode 2
            if self.checkInputOperandType 0 .tensorQuant8Asymm ∨
                self.checkInputOperandType 0 .tensorQuant8AsymmSigned then
              self.dequantizeNode biasNode (self.inputIndex 2) .f32
            else pure biasNode)
          makeShared .add [multiplyNode, biasNode]) := by
        unfold FullyConnected.addNode FullyConnected.quantizedBias
        rw [if_pos hhas]
        simp only [decide_eq_true_eq, Prog.bind_assoc]
      rw [hfetch]
      apply (returns_biasNode hM hg hbias).bind
      intro biasNode hbiasNode
      apply returns_make
      rw [Node.denote_mk_two, hmultiply, hbiasNode]
      exact hM.add _ _
    · apply (hg.activation hcode).bind
      intro value hvalue
      rw [hvalue]
      apply (returns_applyActivation hM.toAddsBias).mono
      intro node hnode
      rw [hnode, hadd]
  · cases h

end FullyConnected

/-! ## Convolutions -/

section Convolutions

/-- The inputs of a convolution are what its class reads. -/
theorem OperationsBase.Meets.bias_dims (hg : self.Meets ng M nodes g) {o : Nat}
    (hdeclared : g.Declared 2 bias) (hshape : bias.shape = [o]) :
    self.getInputOperandDimensions 2 = [o] := by
  rw [← hshape, ← hdeclared, hg.operand]
  rfl

theorem Conv2d.createNode_denotes (hM : M.Computable) (hl : M.ComputesLayers) (hng : ng.Infers M)
    (hg : self.Meets ng M nodes g) (h : g.conv2d = some y) :
    Returns (answer ng) nodes (Conv2d.createNode self) fun node => node.denote M 0 = y := by
  obtain ⟨x, hx, h⟩ := Option.bind_eq_some_iff.mp h
  obtain ⟨w, hw, h⟩ := Option.bind_eq_some_iff.mp h
  obtain ⟨bias, hbias, h⟩ := Option.bind_eq_some_iff.mp h
  obtain ⟨explicit, hsignature, h⟩ := Option.bind_eq_some_iff.mp h
  dsimp only at h
  split at h
  · next hvalid =>
    obtain ⟨hconstant, hpositive, hxshape, hwshape, hdeclared, hbshape⟩ := hvalid
    obtain rfl := Option.some.inj h
    obtain ⟨hsig, hcount⟩ := hg.convSignature hsignature
    rw [← hg.convParams hconstant hcount] at hpositive hxshape hwshape ⊢
    generalize hp : self.convParams explicit 0 = p at hpositive hxshape hwshape ⊢
    generalize batches x.shape = n at hxshape ⊢
    generalize rows p.nchw x.shape = h at hxshape ⊢
    generalize columns p.nchw x.shape = wd at hxshape ⊢
    generalize channels p.nchw x.shape = c at hxshape hwshape ⊢
    generalize w.shape.getD 0 0 = o at hwshape hbshape ⊢
    generalize w.shape.getD 1 0 = fh at hwshape ⊢
    generalize w.shape.getD 2 0 = fw at hwshape ⊢
    subst hp
    have hinput := shape_toNchw hxshape
    have hfilter := shape_filter_ohwi hwshape
    have hy := @Tensor.shape_convolve ℝ _ ((self.convParams explicit 0).vertical h fh)
      ((self.convParams explicit 0).horizontal wd fw) _ _ _ _ _ _ _ _ _ _ hinput hfilter
    have horder : Conv2d.cls.filterOrder.order = [0, 3, 1, 2].map fun (a : Nat) => (a : Int) := rfl
    have hreturns := returns_convNode hM.toAddsBias hM.toTransposes hng Conv2d.cls_follows hsig
      hpositive horder (isOrder_nchw (by rw [hwshape]; rfl)) (hg.tensor 0 x hx) (hg.tensor 1 w hw)
      (hg.biasDenotes hM hbias hw) hxshape hbshape (hg.bias_dims hdeclared hbshape) hy ?_
    · refine hreturns.mono fun node hnode => HasEntries.eq_arranged ⟨hnode.1, ?_⟩
      intro b i j k hin
      rw [hnode.2 b i j k hin]
      beta_reduce
      rw [Tensor.get_convolve hinput hfilter (inside_arrange.mp hin), add_comm]
      simp only [get_toNchw hxshape, get_filter_ohwi hwshape]
    · intro l inputNode filterNode attrs _ _ hin hfil hattrs
      have hmeaning := hl.convolve attrs _ _ hinput hfilter
      rw [(hattrs h fh).1, (hattrs wd fw).2] at hmeaning
      apply returns_make
      rw [Node.denote_mk_two, hin, hfil]
      exact hmeaning
  · cases h

theorem DepthwiseConv2d.createNode_denotes (hM : M.Computable) (hl : M.ComputesLayers)
    (hng : ng.Infers M) (hg : self.Meets ng M nodes g) (h : g.depthwiseConv2d = some y) :
    Returns (answer ng) nodes (DepthwiseConv2d.createNode self) fun node =>
      node.denote M 0 = y := by
  obtain ⟨x, hx, h⟩ := Option.bind_eq_some_iff.mp h
  obtain ⟨w, hw, h⟩ := Option.bind_eq_some_iff.mp h
  obtain ⟨bias, hbias, h⟩ := Option.bind_eq_some_iff.mp h
  obtain ⟨explicit, hsignature, h⟩ := Option.bind_eq_some_iff.mp h
  dsimp only at h
  split at h
  · next hvalid =>
    obtain ⟨hconstant, hpositive, hxdims, hxshape, hwshape, hdeclared, hbshape, hsome, hdepth⟩ :=
      hvalid
    obtain rfl := Option.some.inj h
    obtain ⟨hsig, hcount⟩ := hg.convSignature hsignature
    rw [← hg.convParams hconstant hcount] at hpositive hxshape hwshape hbshape hsome hdepth ⊢
    generalize hp : self.convParams explicit 1 = p at *
    generalize batches x.shape = n at hxshape ⊢
    generalize rows p.nchw x.shape = height at hxshape ⊢
    generalize columns p.nchw x.shape = width at hxshape ⊢
    generalize channels p.nchw x.shape = c at hxshape hwshape hbshape hsome hdepth ⊢
    generalize hm : (g.integer (OperationsBase.strideInput explicit + 2)).toNat = m at *
    clear hm
    generalize w.shape.getD 1 0 = fh at hwshape hsome ⊢
    generalize w.shape.getD 2 0 = fw at hwshape hsome ⊢
    subst hp
    have hinput := shape_toNchw hxshape
    have hfilter := shape_filter_depthwise hwshape
    have hpos : ∀ d ∈ [c, m, 1, fh, fw], d ≠ 0 := by
      rintro d hd rfl
      exact hsome (by simpa using hd)
    have hchannel : toSizeT (toInt32 c) = c := by
      have hone := hpos c (by simp)
      rw [toInt32_of_range (by omega) (by omega), toSizeT_of_pos (by omega) (by omega)]
      exact Int.toNat_natCast c
    have hy := @Tensor.shape_groupConvolve ℝ _ ((self.convParams explicit 1).vertical height fh)
      ((self.convParams explicit 1).horizontal width fw) _
      ((w.transpose [3, 0, 1, 2]).reshape [c, m, 1, fh, fw]) _ _ _ _ _ _ _ _ _ hinput rfl
    have horder : DepthwiseConv2d.cls.filterOrder.order =
        [3, 0, 1, 2].map fun (a : Nat) => (a : Int) := rfl
    have hreturns := returns_convNode hM.toAddsBias hM.toTransposes hng
      DepthwiseConv2d.cls_follows hsig hpositive horder (isOrder_depthwise (by rw [hwshape]; rfl))
      (hg.tensor 0 x hx) (hg.tensor 1 w hw) (hg.biasDenotes hM hbias hw) hxshape hbshape
      (hg.bias_dims hdeclared hbshape) hy ?_
    · refine hreturns.mono fun node hnode => HasEntries.eq_arranged ⟨hnode.1, ?_⟩
      intro b i j k hin
      rw [hnode.2 b i j k hin]
      beta_reduce
      obtain ⟨hb, hk, hi, hj, -⟩ := inside_arrange.mp hin
      rw [Tensor.get_groupConvolve hinput rfl (inside_arrange.mp hin), add_comm]
      refine congrArg _ (congrArg _ (Finset.sum_congr rfl fun di hdi =>
        Finset.sum_congr rfl fun dj hdj => ?_))
      -- only one input channel belongs to a group
      rw [Finset.mem_range] at hdi hdj
      have htap : Inside [c * m, 1, fh, fw] [k, ((0 : Nat) : Int), di, dj] :=
        ⟨hk, ⟨by omega, by omega⟩, ⟨by omega, by omega⟩, ⟨by omega, by omega⟩, trivial⟩
      rw [Finset.sum_range_one, Tensor.get_reshape_groups hfilter htap, get_toNchw hxshape,
        get_filter_depthwise hwshape]
      simp only [Nat.cast_zero, Nat.cast_one, mul_one, add_zero]
    · intro l inputNode filterNode attrs hholds hcounts hin hfil hattrs
      have hlocal : (if DepthwiseConv2d.cls.dividesByChannel then l.inputChannel
          else l.numberGroups) = some (toInt32 c) := by
        have hdims : self.getInputOperandDimensions 0 = x.shape := by
          rw [← hxdims, hg.operand]
          rfl
        have hdivides : DepthwiseConv2d.cls.dividesByChannel = true := rfl
        have hreads : DepthwiseConv2d.cls.hasChannel = true := rfl
        rw [if_pos hdivides, hcounts.2, if_pos hreads, hholds.nchw, hdims, hxshape]
        cases (self.convParams explicit 1).nchw <;> rfl
      have hcore : Returns (answer ng) nodes
          (OperationsBase.convCore DepthwiseConv2d.cls l inputNode filterNode attrs) fun r =>
          r.denote M 0 = Tensor.groupConvolve ((self.convParams explicit 1).vertical height fh)
            ((self.convParams explicit 1).horizontal width fw) (inputNode.denote M 0)
            ((filterNode.denote M 0).reshape [c, m, 1, fh, fw]) :=
        returns_groupedCore hM.toAddsBias hM.toTransposes hng hl.groupConvolve rfl hlocal hchannel
          (by rw [hin]; exact hinput) (by rw [hfil]; exact hfilter) hpos (hattrs height fh).1
          (hattrs width fw).2
      rw [hin, hfil] at hcore
      exact hcore
  · cases h

end Convolutions

/-! ## Pooling -/

section Pooling

/-- The local variables hold the parameters. -/
structure PoolLocals.Holds (l : PoolLocals) (p : PoolParams) : Prop where
  strideWidth : l.strideWidth = some p.strideWidth
  strideHeight : l.strideHeight = some p.strideHeight
  filterWidth : l.filterWidth = some p.filterWidth
  filterHeight : l.filterHeight = some p.filterHeight
  activation : l.activationFn = some p.activation
  nchw : l.useNchw = p.nchw
  same : p.padding = .same → l.autoPad = some .sameUpper
  valid : p.padding = .valid → l.autoPad = some .valid
  explicit : ∀ left right top bottom, p.padding = .explicit left right top bottom →
    l.autoPad = some .explicit ∧ l.paddingLeft = some left ∧ l.paddingRight = some right ∧
      l.paddingTop = some top ∧ l.paddingBottom = some bottom

variable {cls : PoolClass} {explicit : Bool} {k : Nat}

theorem OperationsBase.Meets.returns_integer (hg : self.Meets ng M nodes g) (hk : g.Constant k) :
    Returns (answer ng) nodes (self.parseInt32 k) (· = g.integer k) := by
  rw [← hg.int32Input hk]
  exact returns_parseInt32

theorem OperationsBase.Meets.returns_layoutFlag (hg : self.Meets ng M nodes g)
    (hcount : g.count ≤ k + 1) (hk : k < g.count → g.Constant k) :
    Returns (answer ng) nodes (self.useNchw (k + 1) k) (· = g.layoutFlag k) := by
  apply returns_useNchw.mono
  intro v hv
  have hiff : self.inputsSize = k + 1 ↔ k < self.inputsSize := by
    rw [← hg.count]
    omega
  rw [hv, ← hg.layoutInput hk]
  unfold OperationsBase.givenLayout OperationsBase.layoutInput
  simp only [hiff]

theorem returns_poolImplicitPadding {scheme strideWidth strideHeight inputWidth inputHeight
    filterWidth filterHeight : Int} (hscheme : scheme = 1 ∨ scheme = 2) :
    Returns (answer ng) nodes (OperationsBase.poolImplicitPadding cls scheme strideWidth
      strideHeight inputWidth inputHeight filterWidth filterHeight)
      (·.2 = if scheme = 1 then .sameUpper else .valid) := by
  unfold OperationsBase.poolImplicitPadding
  rcases hscheme with rfl | rfl
  · refine returns_calculateExplicitPadding.bind fun _ _ => ?_
    exact returns_calculateExplicitPadding.bind fun _ _ => returns_pure rfl
  · simp only [ne_eq, not_true_eq_false, and_false, if_false]
    exact returns_pure rfl

/-- Under either signature the local variables of a pooling hold its parameters. -/
theorem returns_poolLocals (hg : self.Meets ng M nodes g)
    (hsignature : g.poolSignature = some explicit) (hconstant : g.ConstantFrom 1)
    (hscheme : explicit = false → g.integer 1 = 1 ∨ g.integer 1 = 2) :
    Returns (answer ng) nodes (self.poolLocals cls) fun l => l.Holds (g.poolParams explicit) := by
  unfold Arguments.poolSignature at hsignature
  unfold OperationsBase.poolLocals OperationsBase.poolImplicit OperationsBase.poolExplicit
  rw [← hg.count]
  split at hsignature
  · next hexplicit =>
    obtain rfl := Option.some.inj hsignature
    have hinteger : ∀ k, 1 ≤ k → k < 10 →
        Returns (answer ng) nodes (self.parseInt32 k) (· = g.integer k) :=
      fun k hlow hhigh => hg.returns_integer (hconstant k hlow (by omega))
    rw [if_pos (decide_eq_true hexplicit)]
    unfold OperationsBase.poolExplicitLocals
    apply (hinteger 1 (by omega) (by omega)).bind
    intro left hleft
    apply (hinteger 2 (by omega) (by omega)).bind
    intro right hright
    apply (hinteger 3 (by omega) (by omega)).bind
    intro top htop
    apply (hinteger 4 (by omega) (by omega)).bind
    intro bottom hbottom
    apply (hinteger 5 (by omega) (by omega)).bind
    intro strideWidth hstrideWidth
    apply (hinteger 6 (by omega) (by omega)).bind
    intro strideHeight hstrideHeight
    apply (hinteger 7 (by omega) (by omega)).bind
    intro filterWidth hfilterWidth
    apply (hinteger 8 (by omega) (by omega)).bind
    intro filterHeight hfilterHeight
    apply (hinteger 9 (by omega) (by omega)).bind
    intro activationFn hact
    apply (hg.returns_layoutFlag (k := 10) hexplicit.2 (hconstant 10 (by omega))).bind
    intro useNchw hnchw
    refine Returns.bind (Q := fun _ => True) (returns_ite (fun _ => ?_) fun _ =>
      returns_pure trivial) fun _ _ => returns_pure ?_
    · exact returns_convInputSizes.mono fun _ _ => trivial
    · subst hleft hright htop hbottom hstrideWidth hstrideHeight hfilterWidth hfilterHeight hact
      subst hnchw
      refine ⟨rfl, rfl, rfl, rfl, rfl, rfl, nofun, nofun, ?_⟩
      intro left right top bottom h
      obtain ⟨rfl, rfl, rfl, rfl⟩ := Padding.explicit.inj h
      exact ⟨rfl, rfl, rfl, rfl, rfl⟩
  · next hexplicit =>
    split at hsignature
    · next himplicit =>
      obtain rfl := Option.some.inj hsignature
      have hinteger : ∀ k, 1 ≤ k → k < 7 →
          Returns (answer ng) nodes (self.parseInt32 k) (· = g.integer k) :=
        fun k hlow hhigh => hg.returns_integer (hconstant k hlow (by omega))
      rw [if_neg (by simpa using hexplicit), if_pos (by simp [hexplicit, himplicit])]
      unfold OperationsBase.poolImplicitLocals
      apply (hinteger 1 (by omega) (by omega)).bind
      intro scheme hvalue
      apply (hinteger 2 (by omega) (by omega)).bind
      intro strideWidth hstrideWidth
      apply (hinteger 3 (by omega) (by omega)).bind
      intro strideHeight hstrideHeight
      apply (hinteger 4 (by omega) (by omega)).bind
      intro filterWidth hfilterWidth
      apply (hinteger 5 (by omega) (by omega)).bind
      intro filterHeight hfilterHeight
      apply (hinteger 6 (by omega) (by omega)).bind
      intro activationFn hact
      apply (hg.returns_layoutFlag (k := 7) himplicit.2 (hconstant 7 (by omega))).bind
      intro useNchw hnchw
      refine Returns.bind (Q := fun _ => True)
        (returns_convInputSizes.mono fun _ _ => trivial) fun sizes _ => ?_
      have hone := hscheme rfl
      rw [← hvalue] at hone
      apply (returns_poolImplicitPadding hone).bind
      intro padding hpadding
      apply returns_pure
      subst hstrideWidth hstrideHeight hfilterWidth hfilterHeight hact hnchw
      refine ⟨rfl, rfl, rfl, rfl, rfl, rfl, ?_, ?_, ?_⟩
      · intro hsame
        by_cases h : g.integer 1 = 1
        · rw [hvalue, if_pos h] at hpadding
          exact congrArg some hpadding
        · simp [Arguments.poolParams, h] at hsame
      · intro hvalid
        by_cases h : g.integer 1 = 1
        · simp [Arguments.poolParams, h] at hvalid
        · rw [hvalue, if_neg h] at hpadding
          exact congrArg some hpadding
      · intro left right top bottom h
        simp only [Arguments.poolParams, Bool.false_eq_true, if_false] at h
        split at h <;> cases h
    · cases hsignature

theorem toSizeT_of_nonneg {v : Int} (hpos : 0 ≤ v) (hlt : v < 2 ^ 31) : toSizeT v = v.toNat := by
  unfold toSizeT
  rw [Int.emod_eq_of_lt hpos (by omega)]

theorem OperationsBase.Meets.integer_lt (hg : self.Meets ng M nodes g) (k : Nat) :
    g.integer k < 2 ^ 31 := by
  unfold Arguments.integer
  cases hnumber : g.number .int32 k with
  | none => decide
  | some v =>
      rw [Option.getD_some, ← (hg.number .int32 k v hnumber).2.2]
      exact int32Input_lt k

/-- The attributes have the windows of the parameters. -/
def PoolAttrs.Follows (attrs : PoolAttrs) (p : PoolParams) : Prop :=
  attrs.window 0 = p.vertical ∧ attrs.window 1 = p.horizontal ∧
    attrs.kernel = [p.filterHeight.toNat, p.filterWidth.toNat]

theorem returns_poolAttrs (hg : self.Meets ng M nodes g) {l : PoolLocals}
    (hl : l.Holds (g.poolParams explicit)) (hp : (g.poolParams explicit).Positive) :
    Returns (answer ng) nodes (OperationsBase.poolAttrs l) (·.Follows (g.poolParams explicit)) := by
  have hsw : toSizeT (g.poolParams explicit).strideWidth =
      (g.poolParams explicit).strideWidth.toNat :=
    toSizeT_of_pos hp.strideWidth (hg.integer_lt _)
  have hsh : toSizeT (g.poolParams explicit).strideHeight =
      (g.poolParams explicit).strideHeight.toNat :=
    toSizeT_of_pos hp.strideHeight (hg.integer_lt _)
  have hfw : toSizeT (g.poolParams explicit).filterWidth =
      (g.poolParams explicit).filterWidth.toNat :=
    toSizeT_of_pos hp.filterWidth (hg.integer_lt _)
  have hfh : toSizeT (g.poolParams explicit).filterHeight =
      (g.poolParams explicit).filterHeight.toNat :=
    toSizeT_of_pos hp.filterHeight (hg.integer_lt _)
  have hpads : ∀ left right top bottom,
      (g.poolParams explicit).padding = .explicit left right top bottom →
        (toSizeT left : Int) = left ∧ (toSizeT right : Int) = right ∧
          (toSizeT top : Int) = top ∧ (toSizeT bottom : Int) = bottom := by
    intro left right top bottom hpadding
    obtain ⟨h1, h2, h3, h4⟩ := hp.paddings left right top bottom hpadding
    have hcast : ∀ k, 0 ≤ g.integer k → (toSizeT (g.integer k) : Int) = g.integer k := by
      intro k hk
      rw [toSizeT_of_nonneg hk (hg.integer_lt k), Int.toNat_of_nonneg hk]
    unfold Arguments.poolParams at hpadding
    cases explicit with
    | true =>
        obtain ⟨rfl, rfl, rfl, rfl⟩ := Padding.explicit.inj hpadding
        exact ⟨hcast 1 h1, hcast 2 h2, hcast 3 h3, hcast 4 h4⟩
    | false =>
        dsimp only at hpadding
        simp only [Bool.false_eq_true, if_false] at hpadding
        split at hpadding <;> cases hpadding
  generalize g.poolParams explicit = p at *
  refine Returns.bind (Q := (· = p.strideHeight)) (returns_readLocal (by simp [hl.strideHeight]))
    fun strideHeight heq => ?_
  subst heq
  refine Returns.bind (Q := (· = p.strideWidth)) (returns_readLocal (by simp [hl.strideWidth]))
    fun strideWidth heq => ?_
  subst heq
  refine Returns.bind (Q := (· = l.paddingTop.getD default)) (returns_readLocal rfl)
    fun top htop => ?_
  refine Returns.bind (Q := (· = l.paddingLeft.getD default)) (returns_readLocal rfl)
    fun left hleft => ?_
  refine Returns.bind (Q := (· = l.paddingBottom.getD default)) (returns_readLocal rfl)
    fun bottom hbottom => ?_
  refine Returns.bind (Q := (· = l.paddingRight.getD default)) (returns_readLocal rfl)
    fun right hright => ?_
  refine Returns.bind (Q := (· = p.filterHeight)) (returns_readLocal (by simp [hl.filterHeight]))
    fun filterHeight heq => ?_
  subst heq
  refine Returns.bind (Q := (· = p.filterWidth)) (returns_readLocal (by simp [hl.filterWidth]))
    fun filterWidth heq => ?_
  subst heq
  refine Returns.bind (Q := (· = l.autoPad.getD default)) (returns_readLocal rfl)
    fun autoPad hpad => returns_pure ?_
  rw [hsw, hsh, hfw, hfh]
  unfold PoolAttrs.Follows PoolParams.vertical PoolParams.horizontal
  cases hpadding : p.padding with
  | same =>
      rw [hl.same hpadding, Option.getD_some] at hpad
      subst hpad
      exact ⟨rfl, rfl, rfl⟩
  | valid =>
      rw [hl.valid hpadding, Option.getD_some] at hpad
      subst hpad
      exact ⟨rfl, rfl, rfl⟩
  | explicit left' right' top' bottom' =>
      obtain ⟨hauto, h1, h2, h3, h4⟩ := hl.explicit _ _ _ _ hpadding
      obtain ⟨hleft', hright', htop', hbottom'⟩ := hpads _ _ _ _ hpadding
      rw [hauto, Option.getD_some] at hpad
      rw [h1, Option.getD_some] at hleft
      rw [h2, Option.getD_some] at hright
      rw [h3, Option.getD_some] at htop
      rw [h4, Option.getD_some] at hbottom
      subst hpad hleft hright htop hbottom
      unfold PoolAttrs.window
      simp only [List.getD_cons_zero, List.getD_cons_succ, hleft', hright', htop', hbottom',
        and_self]

variable {l : PoolLocals} {p : PoolParams} {attrs : PoolAttrs} {f : List ℝ → ℝ} {n h wd c : Nat}

/-- On NCHW tensors the attributes pool as the parameters ask. -/
theorem PoolAttrs.Follows.pool_eq (hattrs : attrs.Follows p) (hcovers : p.CoversCells h wd) :
    attrs.Covers 0 h ∧ attrs.Covers 1 wd ∧ attrs.pool f h wd x =
      x.pool f (p.vertical h) (p.horizontal wd) p.filterHeight.toNat p.filterWidth.toNat := by
  obtain ⟨hvertical, hhorizontal, hkernel⟩ := hattrs
  unfold PoolAttrs.Covers PoolAttrs.pool
  rw [hvertical, hhorizontal, hkernel]
  exact ⟨hcovers.1, hcovers.2, rfl⟩

/-- The end of a pooling class: the activation, and the layout of the operation. -/
theorem returns_poolTail (hM : M.Computable) (hl : l.Holds p)
    (hx : x.shape = arrange p.nchw n h wd c) {poolNode : Node}
    (hpool : poolNode.denote M 0 = (toNchw p.nchw x).pool f (p.vertical h) (p.horizontal wd)
      p.filterHeight.toNat p.filterWidth.toNat) :
    Returns (answer ng) nodes (do
      let activationFn ← readLocal l.activationFn
      let outputNode ← applyActivation poolNode activationFn
      transposeUnless l.useNchw .nchwNhwc outputNode) fun node =>
        node.denote M 0 = p.pooled f n h wd c x := by
  have hinput := shape_toNchw hx
  have hpooled : (poolNode.denote M 0).shape =
      [n, c, (p.vertical h).outputSize h p.filterHeight.toNat,
        (p.horizontal wd).outputSize wd p.filterWidth.toNat] := by
    rw [hpool, Tensor.shape_pool hinput]
  refine Returns.bind (Q := (· = p.activation)) (returns_readLocal (by simp [hl.activation]))
    fun code hcode => ?_
  rw [hcode, hl.nchw]
  apply (returns_applyActivation hM.toAddsBias).bind
  intro outputNode hout
  have hactive : (outputNode.denote M 0).shape =
      [n, c, (p.vertical h).outputSize h p.filterHeight.toNat,
        (p.horizontal wd).outputSize wd p.filterWidth.toNat] := by
    rw [hout]
    exact hpooled
  apply (returns_fromNchw hM.toTransposes hactive).mono
  intro node hnode
  refine HasEntries.eq_arranged ⟨?_, ?_⟩
  · rw [hnode]
    exact shape_fromNchw hactive
  · intro b i j k hin
    have hin' := inside_arrange.mp hin
    rw [hnode, get_fromNchw hactive, hout, Tensor.get_map (by rw [hpooled]; exact hin'), hpool,
      Tensor.get_pool hinput hin']
    simp only [get_toNchw hx]

/-- What a pooling asks for. -/
theorem pooling_eq_some (h : g.pooling f = some y) :
    ∃ x explicit, g.tensor 0 = some x ∧ g.poolSignature = some explicit ∧ g.ConstantFrom 1 ∧
      (explicit = false → g.integer 1 = 1 ∨ g.integer 1 = 2) ∧
        (g.poolParams explicit).Positive ∧ ∃ n h w c,
          x.shape = arrange (g.poolParams explicit).nchw n h w c ∧
          (g.poolParams explicit).CoversCells h w ∧
            y = (g.poolParams explicit).pooled f n h w c x := by
  obtain ⟨x, hx, h⟩ := Option.bind_eq_some_iff.mp h
  obtain ⟨explicit, hsignature, h⟩ := Option.bind_eq_some_iff.mp h
  dsimp only at h
  split at h
  · next hvalid =>
    obtain ⟨hconstant, hscheme, hpositive, hshape, hcovers⟩ := hvalid
    exact ⟨x, explicit, hx, hsignature, hconstant, hscheme, hpositive, _, _, _, _, hshape, hcovers,
      (Option.some.inj h).symm⟩
  · cases h

theorem AveragePool2D.createNode_denotes (hM : M.Computable) (hl : M.ComputesLayers)
    (hg : self.Meets ng M nodes g) (h : g.pooling average = some y) :
    Returns (answer ng) nodes (AveragePool2D.createNode self) fun node => node.denote M 0 = y := by
  obtain ⟨x, explicit, hx, hsignature, hconstant, hscheme, hpositive, n, h, w, c, hshape, hcovers,
    rfl⟩ := pooling_eq_some h
  apply (hg.tensor 0 x hx).bind
  intro inputNode hinput
  apply (returns_poolLocals hg hsignature hconstant hscheme).bind
  intro l hholds
  refine Returns.bind (Q := fun node => node.denote M 0 =
    toNchw (g.poolParams explicit).nchw x) ?_ fun inputNode' hinput' => ?_
  · rw [hholds.nchw, ← hinput]
    exact returns_toNchw hM.toTransposes (by rw [hinput]; exact hshape)
  apply (returns_poolAttrs hg hholds hpositive).bind
  intro attrs hattrs
  obtain ⟨hrows, hcolumns, hpool⟩ := hattrs.pool_eq hcovers
  refine Returns.bind (returns_make ?_) fun poolNode => returns_poolTail hM hholds hshape
  rw [Node.denote_mk_one, hinput', hl.avgPool attrs _ (shape_toNchw hshape) hrows hcolumns]
  exact hpool

theorem MaxPool2d.createNode_denotes (hM : M.Computable) (hl : M.ComputesLayers)
    (hg : self.Meets ng M nodes g) (h : g.pooling largest = some y) :
    Returns (answer ng) nodes (MaxPool2d.createNode self) fun node => node.denote M 0 = y := by
  obtain ⟨x, explicit, hx, hsignature, hconstant, hscheme, hpositive, n, h, w, c, hshape, hcovers,
    rfl⟩ := pooling_eq_some h
  apply (returns_poolLocals hg hsignature hconstant hscheme).bind
  intro l hholds
  apply (hg.tensor 0 x hx).bind
  intro inputNode hinput
  refine Returns.bind (Q := fun node => node.denote M 0 =
    toNchw (g.poolParams explicit).nchw x) ?_ fun inputNode' hinput' => ?_
  · rw [hholds.nchw, ← hinput]
    exact returns_toNchw hM.toTransposes (by rw [hinput]; exact hshape)
  apply (returns_poolAttrs hg hholds hpositive).bind
  intro attrs hattrs
  obtain ⟨hrows, hcolumns, hpool⟩ := hattrs.pool_eq hcovers
  refine Returns.bind (returns_make ?_) fun poolNode => returns_poolTail hM hholds hshape
  rw [Node.denote_mk_one, hinput', hl.maxPool attrs _ (shape_toNchw hshape) hrows hcolumns]
  exact hpool

/-- The root of the mean of squares is taken of squares. -/
theorem pool_rootMeanSquare {vertical horizontal : Window} {fh fw : Nat}
    (hx : x.shape = [n, c, h, wd]) :
    ((x.map fun v => v * v).pool average vertical horizontal fh fw).map Real.sqrt =
      x.pool rootMeanSquare vertical horizontal fh fw := by
  rw [Tensor.pool_map _ hx]
  have hshape : (x.pool rootMeanSquare vertical horizontal fh fw).shape = _ := Tensor.shape_pool hx
  have hsame : ((x.pool (fun l => average (l.map fun v => v * v)) vertical horizontal fh fw).map
      Real.sqrt).shape = (x.pool rootMeanSquare vertical horizontal fh fw).shape :=
    (Tensor.shape_pool hx).trans hshape.symm
  apply Tensor.ext_inside hsame
  intro index hin
  rw [hsame, hshape] at hin
  match index, hin with
  | [b, k, i, j], hin =>
      rw [Tensor.get_map (by rw [Tensor.shape_pool hx]; exact hin), Tensor.get_pool hx hin,
        Tensor.get_pool hx hin]
      rfl

/-- The averages of squares have roots. -/
theorem average_squares_nonneg (l : List ℝ) : 0 ≤ average (l.map fun v => v * v) := by
  apply div_nonneg _ (Nat.cast_nonneg _)
  apply List.sum_nonneg
  intro v hv
  obtain ⟨u, -, rfl⟩ := List.mem_map.mp hv
  exact mul_self_nonneg u

theorem L2Pooling2D.createNode_denotes (hM : M.Computable) (hl : M.ComputesLayers)
    (hg : self.Meets ng M nodes g) (hy : g.pooling rootMeanSquare = some y) :
    Returns (answer ng) nodes (L2Pooling2D.createNode self) fun node => node.denote M 0 = y := by
  obtain ⟨x, explicit, hx, hsignature, hconstant, hscheme, hpositive, n, h, w, c, hshape, hcovers,
    rfl⟩ := pooling_eq_some hy
  have hinput := shape_toNchw hshape
  have hsquares : (toNchw (g.poolParams explicit).nchw x).map (fun v => v * v) =
      toNchw (g.poolParams explicit).nchw (x.map fun v => v * v) := by
    unfold toNchw
    split
    · rfl
    · next hnchw =>
      rw [Tensor.transpose_map]
      exact isOrder_nchw (by rw [hshape]; cases (g.poolParams explicit).nchw <;> rfl)
  apply (returns_poolLocals hg hsignature hconstant hscheme).bind
  intro l hholds
  apply (hg.tensor 0 x hx).bind
  intro inputNode hinputNode
  refine Returns.bind (Q := fun node => node.denote M 0 = x.map fun v => v * v) (returns_make ?_)
    fun squared hsquared => ?_
  · rw [Node.denote_mk_two, hinputNode, hM.pairwise .multiply .mul rfl]
    · exact Tensor.broadcast_same
    · exact definedOn_total_pair fun _ => .inl rfl
  refine Returns.bind (Q := fun node => node.denote M 0 =
    (toNchw (g.poolParams explicit).nchw x).map fun v => v * v) ?_ fun squared' hsquared' => ?_
  · rw [hholds.nchw, hsquares, ← hsquared]
    exact returns_toNchw hM.toTransposes (by rw [hsquared]; exact hshape)
  apply (returns_poolAttrs hg hholds hpositive).bind
  intro attrs hattrs
  obtain ⟨hrows, hcolumns, hpool⟩ := hattrs.pool_eq hcovers
  refine Returns.bind (Q := fun node => node.denote M 0 =
    ((toNchw (g.poolParams explicit).nchw x).map fun v => v * v).pool average
      ((g.poolParams explicit).vertical h) ((g.poolParams explicit).horizontal w)
      (g.poolParams explicit).filterHeight.toNat (g.poolParams explicit).filterWidth.toNat)
    (returns_make ?_) fun poolNode hpoolNode => ?_
  · have hshape' : ((toNchw (g.poolParams explicit).nchw x).map fun v => v * v).shape =
        [n, c, h, w] := hinput
    rw [Node.denote_mk_one, hsquared', hl.avgPool attrs _ hshape' hrows hcolumns]
    exact hpool
  refine Returns.bind (returns_make ?_) fun root => returns_poolTail hM hholds hshape
  rw [Node.denote_mk_one, hpoolNode, hM.entrywise .sqrt .sqrt rfl]
  · exact pool_rootMeanSquare hinput
  · intro index hin
    rw [Tensor.pool_map _ hinput] at hin ⊢
    rw [Tensor.shape_pool hinput] at hin
    match index, hin with
    | [b, k, i, j], hin =>
        rw [Tensor.get_pool hinput hin]
        exact average_squares_nonneg _

end Pooling

end NnHal
