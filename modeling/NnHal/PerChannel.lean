import NnHal.Divisions
import NnHal.QuantizedNodes

/-!
# Operands with a scale for every channel

`DequantizeNode` lays the scales of a per-channel operand along one axis: their
node has as many axes as input 0 has from that channel on, and broadcasting
aligns it at the last axis.
-/

namespace NnHal

open Command Tensors Quantization

/-! ## The scales -/

/-- The scale of a channel. -/
def SymmPerChannelQuantParams.scale (params : SymmPerChannelQuantParams) (channel : Int) : Rat :=
  FloatFormat.binary32.value (params.scales.getD channel.toNat 0)

/-- The operand has these scales, one for every coordinate of the channel's axis. -/
structure Operand.PerChannel (o : Operand) (params : SymmPerChannelQuantParams) : Prop where
  type : o.type = .tensorQuant8SymmPerChannel
  channelQuant : o.channelQuant = some params
  channel : params.channelDim < o.dimensions.length
  scales : params.scales.length = o.dimensions.getD params.channelDim 0

/-- The axes before the channel's and those behind it. -/
theorem Operand.PerChannel.split {o : Operand} {params : SymmPerChannelQuantParams}
    (h : o.PerChannel params) :
    ∃ before after, o.dimensions = before ++ params.scales.length :: after ∧
      before.length = params.channelDim := by
  have hchannel := h.channel
  have hsize : params.scales.length = o.dimensions[params.channelDim] := by
    rw [h.scales, List.getD_eq_getElem _ _ hchannel]
  refine ⟨o.dimensions.take params.channelDim, o.dimensions.drop (params.channelDim + 1), ?_,
    List.length_take_of_le hchannel.le⟩
  rw [hsize, ← List.drop_eq_getElem_cons, List.take_append_drop]

/-- The inputs that per-channel operands are dequantized at: the filters of the
convolutions the driver accepts, and the input of `DEQUANTIZE`. -/
inductive PerChannelInput (ng : Ngraph) (nodes : NgraphNodes) (self : OperationsBase) : Nat → Prop
  | conv2d (h : Accepts ng nodes (Conv2d.validate self)) : PerChannelInput ng nodes self 1
  | depthwiseConv2d (h : Accepts ng nodes (DepthwiseConv2d.validate self)) :
      PerChannelInput ng nodes self 1
  | groupedConv2d (h : Accepts ng nodes (GroupedConv2d.validate self)) :
      PerChannelInput ng nodes self 1
  | transposeConv2D (h : Accepts ng nodes (TransposeConv2D.validate self)) :
      PerChannelInput ng nodes self 1
  | dequantize : PerChannelInput ng nodes self 0

section Dequantize

variable {M : Meaning Element} {conv : Conversion} {ng : Ngraph} {nodes : NgraphNodes}
variable {self : OperationsBase} {params : SymmPerChannelQuantParams} {input : Nat}

/-- The operand has as many axes as input 0, from which the code takes the rank. -/
theorem PerChannelInput.rank_eq (h : PerChannelInput ng nodes self input) :
    (self.getInputOperandDimensions 0).length =
      (self.getInputOperandDimensions input).length := by
  cases h with
  | conv2d h =>
      have hchecked := Conv2d.checked h
      rw [hchecked.input, hchecked.filter]
  | depthwiseConv2d h =>
      have hchecked := DepthwiseConv2d.checked h
      rw [hchecked.input, hchecked.filter]
  | groupedConv2d h =>
      have hchecked := GroupedConv2d.checked h
      rw [hchecked.input, hchecked.filter]
  | transposeConv2D h =>
      obtain ⟨hranks, -⟩ := Accepts.of_ite h
      obtain ⟨hinput, hfilter⟩ := convRanks_iff.mp (not_not.mp hranks)
      rw [hinput, hfilter]
  | dequantize => rfl

/-- The scales as a tensor with this many axes behind the channel. -/
def SymmPerChannelQuantParams.tensor (params : SymmPerChannelQuantParams) (behind : Nat) :
    Tensor Element :=
  Tensor.ofFn (Tensor.channelShape params.scales.length behind) fun index =>
    ⟨.f32, params.scale (flat (Tensor.channelShape params.scales.length behind) index)⟩

/-- A constant of scales. -/
theorem Meaning.Computes.scales (hM : M.Computes conv) (params : SymmPerChannelQuantParams)
    (behind : Nat) :
    (Node.mk (.constant .f32 (Tensor.channelShape params.scales.length behind)
      (params.scales.map .float32)) []).denote M 0 = params.tensor behind := by
  have hprod : (params.scales.map Scalar.float32).length =
      (Tensor.channelShape params.scales.length behind).prod := by
    simp [Tensor.channelShape]
  have hzero : FloatFormat.binary32.value 0 = 0 := by
    norm_num [FloatFormat.value, FloatFormat.binary32]
  have hvalue : ∀ k, ((params.scales.map Scalar.float32).getD k (.int 0)).value =
      FloatFormat.binary32.value (params.scales.getD k 0) := by
    intro k
    rw [List.getD_eq_getElem?_getD, List.getD_eq_getElem?_getD, List.getElem?_map]
    cases params.scales[k]? with
    | none => exact hzero.symm
    | some bits => rfl
  rw [Node.denote, Node.denoteAll, hM.constant _ _ _ hprod fun v _ => represents_float rfl _]
  simp only [hvalue]
  rfl

theorem returns_channelScaleNode (hM : M.Computes conv) {o : Operand}
    (ho : o.channelQuant = some params) {behind : Nat}
    (hrank : (self.getInputOperandDimensions 0).length = params.channelDim + (behind + 1)) :
    Returns (answer ng) nodes (self.channelScaleNode o)
      fun node => node.denote M 0 = params.tensor behind := by
  unfold OperationsBase.channelScaleNode OperationsBase.channelQuant
  rw [ho]
  have hshape : (List.replicate ((self.getInputOperandDimensions 0).length - params.channelDim)
      1).set 0 params.scales.length = Tensor.channelShape params.scales.length behind := by
    rw [hrank, Nat.add_sub_cancel_left]
    rfl
  refine Returns.bind (Q := (· = params)) (returns_pure rfl) ?_
  intro _ heq
  subst heq
  refine returns_ite (fun hlt => absurd hlt (by omega)) fun _ => ?_
  refine Returns.bind (Q := fun _ => True) (returns_faultIf trivial) fun _ _ => ?_
  rw [hshape]
  exact returns_const (hM.scales _ behind)

/-- The scale of the channel, read from the tensor. -/
theorem SymmPerChannelQuantParams.get_tensor {behind : Nat} {channel : Int}
    (h : Inside [params.scales.length] [channel]) :
    (params.tensor behind).get (channel :: List.replicate behind 0) =
      ⟨.f32, params.scale channel⟩ := by
  have hzeros : Inside (List.replicate behind 1) (List.replicate behind 0) := by
    have hones : 0 ∉ List.replicate behind 1 := by simp [List.mem_replicate]
    simpa using inside_zeros hones
  have hin : Inside (Tensor.channelShape params.scales.length behind)
      (channel :: List.replicate behind 0) := ⟨h.1, hzeros⟩
  unfold tensor
  rw [Tensor.get_ofFn hin, Tensor.flat_channel]

/-- `DequantizeNode` of a per-channel operand multiplies every entry by the scale of
its channel, where input 0 has as many axes. -/
theorem returns_dequantizeNode_perChannel (hM : M.Computes conv) (hng : ng.Types M) {index : Nat}
    (ho : (self.sModelInfo.getOperand index).PerChannel params)
    (hrank : (self.getInputOperandDimensions 0).length =
      (self.sModelInfo.getOperand index).dimensions.length) {stored : Node}
    (hstored : (stored.denote M 0).shape = (self.sModelInfo.getOperand index).dimensions)
    (type : ElementType) :
    Returns (answer ng) nodes (self.dequantizeNode stored index type) fun node =>
      (node.denote M 0).shape = (stored.denote M 0).shape ∧
        ∀ i, stored.HasIndex M i →
          node.valueAt M i = stored.valueAt M i * params.scale (i.getD params.channelDim 0) := by
  rcases ho.split with ⟨before, after, hdims, hbefore⟩
  have hbehind : (self.getInputOperandDimensions 0).length =
      params.channelDim + (after.length + 1) := by
    rw [hrank, hdims, List.length_append, List.length_cons, hbefore]
  unfold OperationsBase.dequantizeNode
  refine Returns.bind (Q := (· = ng.getElementType stored)) (returns_getElementType rfl) ?_
  intro _ heq
  subst heq
  apply (returns_toFloat hM hng stored).bind
  intro input hinput
  refine Returns.bind (Q := fun node => node.denote M 0 = retyped .f32 (fun v => v)
    (Tensor.broadcast (Element.arith (· * ·)) (input.denote M 0) (params.tensor after.length))) ?_
    fun node hnode => (returns_dequantized hM hnode).mono ?_
  · rw [if_pos ho.type]
    refine (returns_channelScaleNode hM ho.channelQuant hbehind).bind fun scaleNode hscale =>
      returns_make ?_
    have htyped : Typed .f32 (input.denote M 0) := by
      rw [hinput]
      exact typed_retyped _
    have hvector : Typed .f32 (params.tensor after.length) := typed_ofFn _ _
    rw [Node.denote_mk_two, hscale, hM.multiply .f32 _ _ htyped hvector]
    exact (typed_broadcast htyped).retyped_id.symm
  · intro result hresult
    have hshape : (input.denote M 0).shape = before ++ params.scales.length :: after := by
      rw [hinput, shape_retyped, hstored, hdims]
    have hvector : (params.tensor after.length).shape =
        Tensor.channelShape params.scales.length after.length := rfl
    have hsame := Tensor.shape_broadcast_channel (f := Element.arith (· * ·)) hshape hvector
    refine ⟨?_, fun i hi => ?_⟩
    · rw [hresult, shape_retyped, hsame, hinput, shape_retyped]
    · have hin : Inside (input.denote M 0).shape i := by
        rw [hinput]
        exact hi
      have hindex : Inside (Tensor.broadcast (Element.arith (· * ·)) (input.denote M 0)
          (params.tensor after.length)).shape i := by
        rw [hsame]
        exact hin
      have hcoord : Inside [params.scales.length] [i.getD before.length 0] := by
        rw [hshape] at hin
        have hlt := (inside_iff.mp hin).2 before.length (by simp)
        rw [List.getD_append_right _ _ _ _ (Nat.le_refl _), Nat.sub_self] at hlt
        exact ⟨hlt, trivial⟩
      unfold Node.valueAt
      rw [hresult, get_retyped hindex, Tensor.get_broadcast_channel hshape hvector hin,
        SymmPerChannelQuantParams.get_tensor hcoord, hinput, get_retyped hi, hbefore]
      rfl

/-- Where ngraph refuses nothing, `DequantizeNode` returns. -/
theorem Operand.PerChannel.restores {index : Nat}
    (ho : (self.sModelInfo.getOperand index).PerChannel params)
    (hrank : (self.getInputOperandDimensions 0).length =
      (self.sModelInfo.getOperand index).dimensions.length)
    (haccepts : ∀ op args, ng.accepts op args = true) (type : ElementType) (stored : Node) :
    ∃ node, self.MakesRestored ng nodes index type stored node := by
  have htype : self.sModelInfo.getOperandType index = .tensorQuant8SymmPerChannel := ho.type
  have hchannel := ho.channel
  have hrun : .stop ∉ self.dequantizeAccesses index := by
    unfold OperationsBase.dequantizeAccesses
    rw [if_pos htype, ho.channelQuant]
    simp only
    rw [if_neg (by omega)]
    exact List.not_mem_nil
  exact builds_of_follows (follows_dequantizeNode stored index type) hrun haccepts

/-- **Per-channel operands.**  At every input where one is dequantized, for every
rank, channel and vector of scales, `DequantizeNode` returns a node where ngraph
refuses nothing, and every entry of a node it returns is the stored number times the
scale of its channel. -/
theorem dequantizeNode_perChannel (hM : M.Computes conv) (hng : ng.Types M)
    (hinput : PerChannelInput ng nodes self input)
    (ho : (self.getInputOperand input).PerChannel params) {stored : Node}
    (hstored : (stored.denote M 0).shape = self.getInputOperandDimensions input)
    (type : ElementType) :
    ((∀ op args, ng.accepts op args = true) →
      ∃ node, self.MakesRestored ng nodes (self.inputIndex input) type stored node) ∧
    ∀ node, self.MakesRestored ng nodes (self.inputIndex input) type stored node →
      (node.denote M 0).shape = self.getInputOperandDimensions input ∧
      ∀ i, Inside (self.getInputOperandDimensions input) i →
        node.valueAt M i = stored.valueAt M i * params.scale (i.getD params.channelDim 0) := by
  have hrank := hinput.rank_eq
  refine ⟨fun haccepts => ho.restores hrank haccepts type stored, fun node hnode => ?_⟩
  obtain ⟨hshape, hentries⟩ :=
    (returns_dequantizeNode_perChannel hM hng ho hrank hstored type node hnode).2
  refine ⟨hshape.trans hstored, fun i hi => hentries i ?_⟩
  rw [← hstored] at hi
  exact hi

end Dequantize

/-! ### Two rows of three channels -/

/-- The scales 1, 1/2 and 3/2 along the last axis. -/
def threeScales : SymmPerChannelQuantParams := ⟨[0x3f800000, 0x3f000000, 0x3fc00000], 1⟩

/-- `DEQUANTIZE` of an operand with these scales. -/
def perChannelDequantize : OperationsBase where
  sModelInfo :=
    { mModel :=
        { operands :=
            [{ type := .tensorQuant8SymmPerChannel, dimensions := [2, 3], scale := 0
               zeroPoint := 0, lifetime := .subgraphInput, channelQuant := some threeScales },
              { type := .tensorFloat32, dimensions := [2, 3], scale := 0, zeroPoint := 0
                lifetime := .subgraphOutput }]
          operations := [{ type := .dequantize, inputs := [0], outputs := [1] }]
          inputIndexes := [0]
          outputIndexes := [1] } }
  sPluginType := .cpu
  mNnapiOperationIndex := 0
  mDefaultOutputIndex := 1

/-- The entry in row `r` and column `c` is `10 * r - c`. -/
def storedRows (_ : Nat) : Tensor Element :=
  Tensor.ofFn [2, 3] fun index => ⟨.i8, ((10 * index.getD 0 0 - index.getD 1 0 : Int) : Rat)⟩

def rowsNode : Node := .mk (.parameter 0 .i8 [2, 3]) []

theorem perChannelDequantize_params :
    (perChannelDequantize.getInputOperand 0).PerChannel threeScales where
  type := rfl
  channelQuant := rfl
  channel := by decide
  scales := rfl

/-- The last number of the second row is eight, with the scale 3/2. -/
theorem dequantizeNode_perChannel_rows :
    ∃ node, perChannelDequantize.MakesRestored (.exact storedRows) {} 0 .f32 rowsNode node ∧
      node.valueAt (exact storedRows) [1, 2] = 12 := by
  have hinput : PerChannelInput (.exact storedRows) {} perChannelDequantize 0 := .dequantize
  have hshape : (rowsNode.denote (exact storedRows) 0).shape =
      perChannelDequantize.getInputOperandDimensions 0 := rfl
  have hall := dequantizeNode_perChannel exact_computes Ngraph.exact_types hinput
    perChannelDequantize_params hshape .f32
  obtain ⟨node, hnode⟩ := hall.1 fun _ _ => rfl
  have hin : Inside [2, 3] [1, 2] := by decide
  have hentry := (hall.2 node hnode).2 [1, 2] hin
  have hstored : rowsNode.valueAt (exact storedRows) [1, 2] = 8 := rfl
  have hscale : FloatFormat.binary32.value 0x3fc00000 = 3 / 2 := by
    norm_num [FloatFormat.value, FloatFormat.binary32]
  have hchannel : threeScales.scale (([1, 2] : List Int).getD threeScales.channelDim 0) = 3 / 2 :=
    hscale
  refine ⟨node, hnode, ?_⟩
  rw [hentry, hstored, hchannel]
  norm_num

end NnHal
