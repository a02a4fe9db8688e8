import NnHal.Hazards
import NnHal.ConvolutionMeanings

/-!
# Where graph construction divides

The convolutions divide by a stride, by the channels of their input or by
their group count, and the pooling classes by a stride.  Each `validate` looks at
a part of these numbers only.  For every class this module has the list of its
hazards, and the condition under which its `createNode` meets none.
-/

namespace NnHal

open Command Runs

variable {self : OperationsBase}

/-! ## Convolutions -/

section Conv

variable {cls : ConvClass} {extra optional : Nat}

/-- The parameters of a convolution, by the padding the code finds. -/
def OperationsBase.convGiven (self : OperationsBase) (cls : ConvClass) (extra : Nat) :
    ConvParams :=
  self.convParams (self.convExplicit cls) extra

/-- What the filter is divided by. -/
def OperationsBase.convDivisor (self : OperationsBase) (cls : ConvClass) (extra : Nat) : Int :=
  if cls.dividesByChannel then
    toInt32 ((self.getInputOperandDimensions 0).getD
      (if (self.convGiven cls extra).nchw then 1 else 3) 0)
  else self.int32Input (OperationsBase.strideInput (self.convExplicit cls) + 2)

/-- Padding that keeps the size divides by the strides. -/
def paddingHazards (scheme strideWidth strideHeight : Int) : List Hazard :=
  if scheme = 1 then divisionHazard strideWidth ++ divisionHazard strideHeight else []

def convHazards (cls : ConvClass) (extra : Nat) (self : OperationsBase) : List Hazard :=
  (if self.convExplicit cls then []
    else paddingHazards (self.int32Input 3) (self.int32Input 4) (self.int32Input 5)) ++
  ((if cls.hasGroups then divisionHazard (self.convDivisor cls extra) else []) ++
    if 0 < (self.getInputOperandDimensions 2).length then [] else [.dimension])

/-- What a convolution needs of the values it is given. -/
structure ConvDefined (cls : ConvClass) (extra : Nat) (base : OperationsBase) : Prop where
  strides : (base.convGiven cls extra).padding = .same →
    (base.convGiven cls extra).strideWidth ≠ 0 ∧ (base.convGiven cls extra).strideHeight ≠ 0
  divisor : cls.hasGroups = true → base.convDivisor cls extra ≠ 0
  bias : base.getInputOperandDimensions 2 ≠ []

/-- The inputs of a convolution are those of one of its signatures. -/
structure ConvSigned (cls : ConvClass) (base : OperationsBase) : Prop where
  count : base.convExplicit cls = true ∨ base.convImplicit cls = true
  uses : ∀ u ∈ convUses cls base, u.Signed base (some 1)

/-- What `validate` has checked when it accepts. -/
structure ConvChecked (cls : ConvClass) (base : OperationsBase) : Prop where
  input : (base.getInputOperandDimensions 0).length = 4
  filter : (base.getInputOperandDimensions 1).length = 4
  channel : base.checkInputOperandType 1 .tensorQuant8SymmPerChannel = true →
    ∃ params, (base.getInputOperand 1).channelQuant = some params ∧
      params.channelDim = cls.channelDim

theorem issues_parseInt32If {b : Prop} [Decidable b] {index : Nat} {otherwise : Int}
    {filter : Option Nat} (h : b → (Use.scalar .uint32 index).Signed self filter) :
    Issues Cmd.hazard (self.parseInt32If b index otherwise) []
      (· = if b then self.int32Input index else otherwise) := by
  unfold OperationsBase.parseInt32If
  by_cases hb : b
  · simpa [hb] using issues_parseInt32 (h hb)
  · simp only [hb, decide_false, Bool.false_eq_true, if_false]
    exact issues_pure rfl

/-- The layout the optional inputs end with. -/
theorem issues_convTrailing {index : Nat} (hmax : self.inputsSize ≤ index + 4)
    (h : ∀ u ∈ convTrailingUses self index, u.Signed self (some 1)) :
    Issues Cmd.hazard (self.convTrailing index) []
      (·.2.2 = self.layoutInput (index + 1)) := by
  refine (issues_parseInt32If fun hn => h _ ?_).step fun _ _ => ?_
  · simp [convTrailingUses, hn]
  refine (issues_parseInt32If fun hn => h _ ?_).step fun _ _ => ?_
  · simp [convTrailingUses, hn]
  refine Issues.step (Q := (· = if index + 1 < self.inputsSize then
      self.sModelInfo.scalarValue .uint8 (self.inputIndex (index + 1)) else 0)) ?_
    fun layout hlayout => issues_pure ?_
  · by_cases hn : self.inputsSize = index + 2 ∨ self.inputsSize = index + 3 ∨
        self.inputsSize = index + 4
    · have hlt : index + 1 < self.inputsSize := by omega
      have hscalar : (Use.scalar .uint8 (index + 1)).Signed self (some 1) :=
        h _ (by simp [convTrailingUses, hn])
      simpa [hn, hlt] using issues_parseOperationInput hscalar
    · have hlt : ¬ index + 1 < self.inputsSize := by omega
      simp only [hn, hlt, if_false]
      exact issues_pure rfl
  · rw [hlayout, OperationsBase.layoutInput]
    by_cases hlt : index + 1 < self.inputsSize <;> simp [hlt]

theorem issues_convGroups {index : Nat}
    (h : ∀ u ∈ convGroupsUses cls index, u.Signed self (some 1)) :
    Issues Cmd.hazard (OperationsBase.convGroups self cls index) []
      (· = if cls.hasGroups then some (self.int32Input index) else none) := by
  unfold OperationsBase.convGroups
  by_cases hg : cls.hasGroups = true
  · have hscalar : (Use.scalar .uint32 index).Signed self (some 1) :=
      h _ (by simp [convGroupsUses, hg])
    simp only [hg, if_true]
    exact (issues_parseInt32 hscalar).step fun v hv => issues_pure (by rw [hv])
  · simp only [hg]
    exact issues_pure rfl

/-- An input of four dimensions has the sizes that are read. -/
theorem issues_convInputSizes {hasChannel useNchw : Bool}
    (h : (self.getInputOperandDimensions 0).length = 4) :
    Issues Cmd.hazard (self.convInputSizes hasChannel useNchw) []
      (·.2.2 = if hasChannel then some (toInt32
        ((self.getInputOperandDimensions 0).getD (if useNchw then 1 else 3) 0)) else none) := by
  have hlt : ∀ i j : Nat, i < 4 → j < 4 →
      (if useNchw then i else j) < (self.getInputOperandDimensions 0).length := by
    intro i j hi hj
    rw [h]
    split <;> assumption
  refine (issues_dimAt_of_lt (hlt 3 2 (by omega) (by omega))).step fun _ _ => ?_
  refine (issues_dimAt_of_lt (hlt 2 1 (by omega) (by omega))).step fun _ _ => ?_
  cases hasChannel with
  | false => exact issues_pure rfl
  | true =>
      apply (issues_dimAt_of_lt (hlt 1 3 (by omega) (by omega))).step
      intro c hc
      exact issues_pure (by rw [hc]; rfl)

theorem follows_convImplicitPadding {scheme strideWidth strideHeight inputWidth inputHeight
    filterWidth filterHeight : Int} :
    Follows Cmd.hazard (OperationsBase.convImplicitPadding cls scheme strideWidth strideHeight
      inputWidth inputHeight filterWidth filterHeight)
      (paddingHazards scheme strideWidth strideHeight) := by
  refine follows_ite (fun _ => ?_) fun _ => quiet_ite (quiet_pure _) (quiet_pure _)
  refine (follows_calculateExplicitPadding _ _ _).bind fun _ => ?_
  exact (follows_calculateExplicitPadding _ _ _).bind_quiet fun _ => quiet_pure _

/-- The parameters that follow the strides. -/
theorem signed_convTail {index : Nat} (hcls : cls.Follows extra optional)
    (h : ∀ u ∈ convTailUses cls self index, u.Signed self (some 1)) :
    (∀ u ∈ convGroupsUses cls index, u.Signed self (some 1)) ∧
      (Use.scalar .uint32 (index + extra)).Signed self (some 1) ∧
      ∀ u ∈ convTrailingUses self (index + extra), u.Signed self (some 1) := by
  have hactivation := hcls.activation index
  simp only [convTailUses, hactivation, List.forall_mem_append, List.forall_mem_cons] at h
  exact h

theorem issues_convExplicitLocals (hcls : cls.Follows extra optional)
    (hexplicit : self.convExplicit cls = true)
    (hinput : (self.getInputOperandDimensions 0).length = 4)
    (huses : ∀ u ∈ convLocalsUses cls self, u.Signed self (some 1)) :
    Issues Cmd.hazard (self.convExplicitLocals cls) [] fun l =>
      l.HasCounts self cls true ∧ l.useNchw = (self.convParams true extra).nchw := by
  have hactivation := hcls.activation 9
  have hmax : self.inputsSize ≤ 10 + extra + optional := by
    simp only [OperationsBase.convExplicit, decide_eq_true_eq, hcls.explicitMax] at hexplicit
    exact hexplicit.2.1
  have hoptional := hcls.optional
  rw [convLocalsUses, if_pos hexplicit] at huses
  simp only [List.forall_mem_cons] at huses
  rcases huses with ⟨h3, h4, h5, h6, h7, h8, htail⟩
  obtain ⟨hgroups, hact, htrailing⟩ := signed_convTail hcls htail
  refine (issues_parseInt32 h3).step fun _ _ => (issues_parseInt32 h4).step fun _ _ => ?_
  refine (issues_parseInt32 h5).step fun _ _ => (issues_parseInt32 h6).step fun _ _ => ?_
  refine (issues_parseInt32 h7).step fun _ _ => (issues_parseInt32 h8).step fun _ _ => ?_
  apply (issues_convGroups hgroups).step
  intro numberGroups hnumber
  simp only [hactivation]
  refine (issues_parseInt32 hact).step fun _ _ => ?_
  apply (issues_convTrailing (by omega) htrailing).step
  intro trailing hlayout
  refine (issues_convInputSizes hinput).step fun sizes hsizes => issues_pure ?_
  exact ⟨⟨hnumber, hsizes⟩, hlayout⟩

theorem issues_convImplicitLocals (hcls : cls.Follows extra optional)
    (hexplicit : self.convExplicit cls = false) (himplicit : self.convImplicit cls = true)
    (hinput : (self.getInputOperandDimensions 0).length = 4)
    (huses : ∀ u ∈ convLocalsUses cls self, u.Signed self (some 1))
    {filterWidth filterHeight : Int} :
    Issues Cmd.hazard (self.convImplicitLocals cls filterWidth filterHeight)
      (paddingHazards (self.int32Input 3) (self.int32Input 4) (self.int32Input 5)) fun l =>
      l.HasCounts self cls false ∧ l.useNchw = (self.convParams false extra).nchw := by
  have hactivation := hcls.activation 6
  have hmax : self.inputsSize ≤ 7 + extra + optional := by
    simp only [OperationsBase.convImplicit, decide_eq_true_eq, hcls.implicitMax] at himplicit
    exact himplicit.2.2
  have hoptional := hcls.optional
  rw [convLocalsUses, if_neg (by rw [hexplicit]; decide), if_pos himplicit] at huses
  simp only [List.forall_mem_cons] at huses
  rcases huses with ⟨h3, h4, h5, htail⟩
  obtain ⟨hgroups, hact, htrailing⟩ := signed_convTail hcls htail
  apply (issues_parseInt32 h3).step
  intro scheme hscheme
  apply (issues_parseInt32 h4).step
  intro strideWidth hwidth
  apply (issues_parseInt32 h5).step
  intro strideHeight hheight
  apply (issues_convGroups hgroups).step
  intro numberGroups hnumber
  simp only [hactivation]
  refine (issues_parseInt32 hact).step fun _ _ => ?_
  apply (issues_convTrailing (by omega) htrailing).step
  intro trailing hlayout
  apply (issues_convInputSizes hinput).step
  intro sizes hsizes
  subst hscheme hwidth hheight
  rw [← List.append_nil (paddingHazards _ _ _)]
  refine follows_convImplicitPadding.issues.bind fun _ _ => issues_pure ?_
  exact ⟨⟨hnumber, hsizes⟩, hlayout⟩

/-- The local variables, with the hazards of the implicit padding. -/
theorem issues_convLocals (hcls : cls.Follows extra optional) (hsig : ConvSigned cls self)
    (hchecked : ConvChecked cls self) :
    Issues Cmd.hazard (self.convLocals cls)
      (if self.convExplicit cls then []
        else paddingHazards (self.int32Input 3) (self.int32Input 4) (self.int32Input 5))
      fun l => l.HasCounts self cls (self.convExplicit cls) ∧
        l.useNchw = (self.convGiven cls extra).nchw := by
  have huses : ∀ u ∈ convLocalsUses cls self, u.Signed self (some 1) :=
    fun u hu => hsig.uses u (List.mem_append_left _ hu)
  have hfilter := hchecked.filter
  refine (issues_dimAt_of_lt (by omega)).step fun _ _ => ?_
  refine (issues_dimAt_of_lt (by omega)).step fun _ _ => ?_
  unfold OperationsBase.convGiven
  cases hexplicit : self.convExplicit cls with
  | true => exact issues_convExplicitLocals hcls hexplicit hchecked.input huses
  | false =>
      have himplicit : self.convImplicit cls = true := by simpa [hexplicit] using hsig.count
      simp only [himplicit, Bool.false_eq_true, if_false, if_true]
      exact issues_convImplicitLocals hcls hexplicit himplicit hchecked.input huses

/-- A nonzero `int32_t` is nonzero as a `size_t`. -/
theorem toSizeT_toInt32_eq_zero {n : Int} : toSizeT (toInt32 n) = 0 ↔ toInt32 n = 0 := by
  have hlow : -(2 ^ 31 : Int) ≤ toInt32 n := by
    have := @Int.le_bmod n (2 ^ 32) (by decide)
    unfold toInt32
    omega
  have hhigh : toInt32 n < 2 ^ 31 := by
    have := @Int.bmod_lt n (2 ^ 32) (by decide)
    unfold toInt32
    omega
  unfold toSizeT
  omega

theorem convDivisor_eq (cls : ConvClass) (extra : Nat) :
    ∃ n, self.convDivisor cls extra = toInt32 n := by
  unfold OperationsBase.convDivisor
  split
  · exact ⟨_, rfl⟩
  · exact ⟨_, toInt32_scalarValue.symm⟩

theorem follows_groupedFilter {filterNode : Node} {n divisor : Int}
    (hdivisor : divisor = toInt32 n) :
    Follows Cmd.hazard (OperationsBase.groupedFilter cls filterNode divisor)
      (divisionHazard divisor) := by
  have hzero : divisionHazard (toSizeT divisor) = divisionHazard divisor := by
    simp only [divisionHazard, Int.natCast_eq_zero, hdivisor, toSizeT_toInt32_eq_zero]
  refine calm_shapeAt.bind fun _ => calm_shapeAt.bind fun _ => calm_shapeAt.bind fun _ => ?_
  refine calm_shapeAt.bind fun _ => ?_
  rw [← hzero]
  refine Follows.bind_quiet ((follows_divInt _ _).bind_quiet fun _ => quiet_pure _) fun _ => ?_
  exact Quiet.bind (quiet_perform rfl) fun _ => quiet_perform rfl

theorem follows_addBias {convNode biasNode : Node} {activationFn : Int} :
    Follows Cmd.hazard (self.addBias convNode biasNode activationFn)
      (if 0 < (self.getInputOperandDimensions 2).length then [] else [.dimension]) := by
  refine Quiet.bind (quiet_perform rfl) fun _ => ?_
  refine (issues_dimAt _ 0).follows.bind_quiet fun _ => ?_
  refine Quiet.bind ?_ fun _ => ?_
  · exact quiet_ite (quiet_perform rfl) (quiet_pure _)
  · refine calm_const.bind fun _ => Quiet.bind (quiet_perform rfl) fun _ => ?_
    exact Quiet.bind (quiet_perform rfl) fun _ => calm_applyActivation

theorem calm_convAttrs {l : ConvLocals} : Quiet Cmd.hazard (OperationsBase.convAttrs cls l) := by
  refine calm_readLocal.bind fun _ => calm_readLocal.bind fun _ => ?_
  refine calm_readLocal.bind fun _ => calm_readLocal.bind fun _ => ?_
  refine calm_readLocal.bind fun _ => calm_readLocal.bind fun _ => ?_
  exact calm_readLocal.bind fun _ => quiet_pure _

theorem ConvChecked.channelInRank (hchecked : ConvChecked cls self) (hdim : cls.channelDim < 4) :
    self.ChannelInRank (self.getInputOperand 1) := by
  intro htype
  obtain ⟨params, hparams, hchannel⟩ := hchecked.channel (decide_eq_true htype)
  refine ⟨params, hparams, ?_⟩
  rw [hchannel, hchecked.input]
  exact hdim

theorem calm_convBias (hsig : ConvSigned cls self) (hchecked : ConvChecked cls self)
    {biasNode : Node} : Quiet Cmd.hazard (self.convBias biasNode) := by
  unfold OperationsBase.convBias
  have hnode : (Use.node 2).Signed self (some 1) := hsig.uses _ (by simp [convUses])
  split
  · next hchannel =>
    obtain ⟨params, hparams, -⟩ := hchecked.channel hchannel
    refine ((issues_channelQuant hparams).step (P := fun _ => True) fun _ _ => ?_).follows
    refine Issues.pass calm_const fun _ => Issues.pass calm_const fun _ => ?_
    refine Issues.pass (quiet_perform rfl) fun _ => Issues.pass (quiet_perform rfl) fun _ => ?_
    exact Follows.issues (quiet_perform rfl)
  · exact quiet_ite (calm_dequantizeNode (hnode.channelInRank (by decide))) (quiet_pure _)

/-- The hazards of a convolution are those of its strides, its divisor and its
bias. -/
theorem follows_convNode (hcls : cls.Follows extra optional) (hdim : cls.channelDim < 4)
    (hchannel : cls.dividesByChannel = true → cls.hasChannel = true)
    (hsig : ConvSigned cls self) (hchecked : ConvChecked cls self) :
    Follows Cmd.hazard (self.convNode cls) (convHazards cls extra self) := by
  have hinput : (Use.node 0).Signed self (some 1) := hsig.uses _ (by simp [convUses])
  have hfilter : (Use.node 1).Signed self (some 1) := hsig.uses _ (by simp [convUses])
  have hbias : (Use.node 2).Signed self (some 1) := hsig.uses _ (by simp [convUses])
  have hlocals := issues_convLocals hcls hsig hchecked
  apply hlocals.follows.bind_yields hlocals.yields
  intro l hl
  rcases hl with ⟨⟨hgroups, hchannels⟩, hlayout⟩
  refine (calm_tensor hinput (by decide)).bind fun _ => ?_
  refine (calm_getInputNode hfilter (hchecked.channelInRank hdim)).bind fun _ => ?_
  refine (calm_tensor hbias (by decide)).bind fun _ => ?_
  refine (calm_convBias hsig hchecked).bind fun _ => calm_transpose.bind fun _ => ?_
  refine calm_transposeUnless.bind fun _ => calm_convAttrs.bind fun _ => ?_
  refine Follows.bind ?_ fun _ => calm_readLocal.bind fun _ => ?_
  · refine follows_ite (fun hg => ?_) fun _ => quiet_perform rfl
    have hlocal : (if cls.dividesByChannel then l.inputChannel else l.numberGroups) =
        some (self.convDivisor cls extra) := by
      unfold OperationsBase.convDivisor
      by_cases hdivides : cls.dividesByChannel = true
      · rw [if_pos hdivides, if_pos hdivides, hchannels, if_pos (hchannel hdivides), hlayout]
      · rw [if_neg hdivides, if_neg hdivides, hgroups, if_pos hg]
    rw [hlocal]
    obtain ⟨n, hn⟩ := @convDivisor_eq self cls extra
    exact (follows_groupedFilter hn).bind_quiet fun _ => quiet_perform rfl
  · exact follows_addBias.bind_quiet fun _ => calm_transposeUnless

theorem harmful_paddingHazards {scheme strideWidth strideHeight : Int} :
    ∀ h ∈ paddingHazards scheme strideWidth strideHeight, h.harmful = true := by
  unfold paddingHazards
  split
  · exact List.forall_mem_append.mpr ⟨harmful_divisionHazard, harmful_divisionHazard⟩
  · simp

@[simp]
theorem paddingHazards_eq_nil {scheme strideWidth strideHeight : Int} :
    paddingHazards scheme strideWidth strideHeight = [] ↔
      (scheme = 1 → strideWidth ≠ 0 ∧ strideHeight ≠ 0) := by
  unfold paddingHazards
  by_cases h : scheme = 1 <;> simp [h]

theorem harmful_convHazards : ∀ h ∈ convHazards cls extra self, h.harmful = true := by
  unfold convHazards
  simp only [List.forall_mem_append]
  refine ⟨?_, ?_, ?_⟩
  · split
    · simp
    · exact harmful_paddingHazards
  · split
    · exact harmful_divisionHazard
    · simp
  · split <;> simp [Hazard.harmful]

theorem convGiven_same :
    ((self.convGiven cls extra).padding = .same →
      (self.convGiven cls extra).strideWidth ≠ 0 ∧ (self.convGiven cls extra).strideHeight ≠ 0) ↔
    (self.convExplicit cls = false → self.int32Input 3 = 1 →
      self.int32Input 4 ≠ 0 ∧ self.int32Input 5 ≠ 0) := by
  unfold OperationsBase.convGiven OperationsBase.convParams
  cases hexplicit : self.convExplicit cls with
  | true => simp
  | false =>
      by_cases hscheme : self.int32Input 3 = 1 <;>
        simp [hscheme, OperationsBase.strideInput]

/-- A convolution without hazards. -/
theorem convHazards_eq_nil : convHazards cls extra self = [] ↔ ConvDefined cls extra self := by
  have hstrides : (if self.convExplicit cls then []
      else paddingHazards (self.int32Input 3) (self.int32Input 4) (self.int32Input 5)) = [] ↔
      (self.convExplicit cls = false → self.int32Input 3 = 1 →
        self.int32Input 4 ≠ 0 ∧ self.int32Input 5 ≠ 0) := by
    cases self.convExplicit cls <;> simp
  have hdivisor : (if cls.hasGroups then divisionHazard (self.convDivisor cls extra) else []) =
      [] ↔ (cls.hasGroups = true → self.convDivisor cls extra ≠ 0) := by
    cases cls.hasGroups <;> simp
  have hbias : (if 0 < (self.getInputOperandDimensions 2).length then []
      else [Hazard.dimension]) = [] ↔ self.getInputOperandDimensions 2 ≠ [] := by
    rw [← List.length_pos_iff]
    split <;> simp_all
  unfold convHazards
  rw [List.append_eq_nil_iff, List.append_eq_nil_iff, hstrides, hdivisor, hbias, ← convGiven_same]
  constructor
  · intro h
    exact ⟨h.1, h.2.1, h.2.2⟩
  · intro h
    exact ⟨h.strides, h.divisor, h.bias⟩

/-- **Convolutions.**  No run divides by zero or leaves a dimension vector
exactly when the strides, the divisor and the bias allow it. -/
theorem convNode_defined_iff (hcls : cls.Follows extra optional) (hdim : cls.channelDim < 4)
    (hchannel : cls.dividesByChannel = true → cls.hasChannel = true)
    (hsig : ConvSigned cls self) (hchecked : ConvChecked cls self) (splitsIntoNone : Bool) :
    (∀ ng : Ngraph, ng.Splits splitsIntoNone → ∀ nodes,
        Defined (exec (answer ng) (self.convNode cls) nodes)) ↔
      ConvDefined cls extra self := by
  rw [defined_iff_hazards (follows_convNode hcls hdim hchannel hsig hchecked),
    harmless_iff_nil harmful_convHazards, convHazards_eq_nil]

theorem Accepts.of_ite {ng : Ngraph} {nodes : NgraphNodes} {b : Prop} [Decidable b]
    {validate : Gen Bool} (h : Accepts ng nodes (if b then pure false else validate)) :
    ¬ b ∧ Accepts ng nodes validate := by
  by_cases hb : b
  · rw [if_pos hb] at h
    cases h
  · rw [if_neg hb] at h
    exact ⟨hb, h⟩

theorem convRanks_iff : convRanks self = true ↔
    (self.getInputOperandDimensions 0).length = 4 ∧
      (self.getInputOperandDimensions 1).length = 4 := by
  simp [convRanks]

theorem accepts_convChannelDim {ng : Ngraph} {nodes : NgraphNodes} {channelDim : Nat}
    (h : Accepts ng nodes (convChannelDim self channelDim))
    (htype : self.checkInputOperandType 1 .tensorQuant8SymmPerChannel = true) :
    ∃ params, (self.getInputOperand 1).channelQuant = some params ∧
      params.channelDim = channelDim := by
  unfold Accepts convChannelDim at h
  rw [if_pos htype, OperationsBase.channelQuant] at h
  cases hparams : (self.getInputOperand 1).channelQuant with
  | none =>
      rw [hparams] at h
      cases h
  | some params =>
      rw [hparams] at h
      have hok : Except.ok (ε := Stop) (decide (params.channelDim = channelDim)) = .ok true := h
      injection hok with hdecide
      exact ⟨params, rfl, of_decide_eq_true hdecide⟩

/-- The ranks have been checked, then the channel of the filter. -/
theorem ConvChecked.of_accepts {ng : Ngraph} {nodes : NgraphNodes}
    (hranks : convRanks self = true)
    (h : Accepts ng nodes (convChannelDim self cls.channelDim)) : ConvChecked cls self := by
  obtain ⟨hinput, hfilter⟩ := convRanks_iff.mp hranks
  exact ⟨hinput, hfilter, accepts_convChannelDim h⟩

theorem Conv2d.checked {ng : Ngraph} {nodes : NgraphNodes}
    (h : Accepts ng nodes (Conv2d.validate self)) : ConvChecked Conv2d.cls self := by
  obtain ⟨hranks, hrest⟩ := Accepts.of_ite h
  obtain ⟨-, hchannel⟩ := Accepts.of_ite hrest
  exact .of_accepts (not_not.mp hranks) hchannel

theorem DepthwiseConv2d.checked {ng : Ngraph} {nodes : NgraphNodes}
    (h : Accepts ng nodes (DepthwiseConv2d.validate self)) :
    ConvChecked DepthwiseConv2d.cls self := by
  obtain ⟨hranks, hrest⟩ := Accepts.of_ite h
  have hfilter := (convRanks_iff.mp (not_not.mp hranks)).2
  obtain ⟨d, hd⟩ : ∃ d, (self.getInputOperandDimensions 1)[0]? = some d :=
    ⟨_, List.getElem?_eq_getElem (by omega)⟩
  unfold dimAt at hrest
  rw [hd] at hrest
  obtain ⟨-, hchannel⟩ := Accepts.of_ite hrest
  exact .of_accepts (not_not.mp hranks) hchannel

theorem GroupedConv2d.checked {ng : Ngraph} {nodes : NgraphNodes}
    (h : Accepts ng nodes (GroupedConv2d.validate self)) :
    ConvChecked GroupedConv2d.cls self := by
  obtain ⟨hranks, hchannel⟩ := Accepts.of_ite h
  exact .of_accepts (not_not.mp hranks) hchannel

end Conv

/-! ## Pooling -/

section Pool

variable {cls : PoolClass}

/-- The layout of a pooling operation. -/
def OperationsBase.poolNchw (self : OperationsBase) : Bool :=
  self.layoutInput (if self.poolExplicit then 10 else 7)

/-- Width and height are looked up where the layout has them. -/
def sizeHazards (self : OperationsBase) (useNchw : Bool) : List Hazard :=
  (if (if useNchw then 3 else 2) < (self.getInputOperandDimensions 0).length then []
    else [.dimension]) ++
  if (if useNchw then 2 else 1) < (self.getInputOperandDimensions 0).length then []
    else [.dimension]

def poolHazards (cls : PoolClass) (self : OperationsBase) : List Hazard :=
  if self.poolExplicit then
    if cls.readsExplicitSizes then sizeHazards self self.poolNchw else []
  else sizeHazards self self.poolNchw ++
    paddingHazards (self.int32Input 1) (self.int32Input 2) (self.int32Input 3)

/-- What a pooling class needs of the values it is given. -/
structure PoolDefined (cls : PoolClass) (base : OperationsBase) : Prop where
  sizes : base.poolExplicit = false ∨ cls.readsExplicitSizes = true →
    (if base.poolNchw then 3 else 2) < (base.getInputOperandDimensions 0).length
  strides : base.poolExplicit = false → base.int32Input 1 = 1 →
    base.int32Input 2 ≠ 0 ∧ base.int32Input 3 ≠ 0

/-- The inputs of a pooling operation are those of one of its signatures. -/
structure PoolSigned (base : OperationsBase) : Prop where
  count : base.poolExplicit = true ∨ base.poolImplicit = true
  node : (Use.node 0).Signed base none
  uses : ∀ u ∈ poolLocalsUses base, u.Signed base none

theorem issues_useNchw {inputsSize index : Nat} (hcount : self.inputsSize = inputsSize ↔
      index < self.inputsSize)
    (h : ∀ u ∈ layoutUses self inputsSize index, u.Signed self none) :
    Issues Cmd.hazard (self.useNchw inputsSize index) [] (· = self.layoutInput index) := by
  unfold OperationsBase.useNchw OperationsBase.layoutInput
  by_cases hn : self.inputsSize = inputsSize
  · have hscalar : (Use.scalar .uint8 index).Signed self none :=
      h _ (by simp [layoutUses, hn])
    have hlt : index < self.inputsSize := hcount.mp hn
    rw [if_pos hn]
    refine (issues_parseOperationInput hscalar).step fun v hv => issues_pure ?_
    simp [hv, hlt]
  · have hlt : ¬ index < self.inputsSize := fun hlt => hn (hcount.mpr hlt)
    rw [if_neg hn]
    exact issues_pure (by simp [hlt])

theorem follows_inputSizes {useNchw : Bool} :
    Follows Cmd.hazard (self.convInputSizes false useNchw) (sizeHazards self useNchw) := by
  refine (issues_dimAt _ _).follows.bind fun _ => ?_
  exact (issues_dimAt _ _).follows.bind_quiet fun _ => quiet_pure _

theorem follows_poolImplicitPadding {scheme strideWidth strideHeight inputWidth inputHeight
    filterWidth filterHeight : Int} :
    Follows Cmd.hazard (OperationsBase.poolImplicitPadding cls scheme strideWidth strideHeight
      inputWidth inputHeight filterWidth filterHeight)
      (paddingHazards scheme strideWidth strideHeight) := by
  refine follows_ite (fun _ => ?_) fun _ => quiet_ite (quiet_pure _) (quiet_pure _)
  refine (follows_calculateExplicitPadding _ _ _).bind fun _ => ?_
  exact (follows_calculateExplicitPadding _ _ _).bind_quiet fun _ => quiet_pure _

theorem follows_poolExplicitLocals (hexplicit : self.poolExplicit = true)
    (huses : ∀ u ∈ poolLocalsUses self, u.Signed self none) :
    Follows Cmd.hazard (self.poolExplicitLocals cls)
      (if cls.readsExplicitSizes then sizeHazards self self.poolNchw else []) := by
  have hcount : self.inputsSize = 11 ↔ 10 < self.inputsSize := by
    simp only [OperationsBase.poolExplicit, decide_eq_true_eq] at hexplicit
    omega
  rw [poolLocalsUses, if_pos hexplicit] at huses
  simp only [List.forall_mem_cons] at huses
  rcases huses with ⟨h1, h2, h3, h4, h5, h6, h7, h8, h9, hlayout⟩
  refine (issues_parseInt32 h1).follows.bind fun _ => ?_
  refine (issues_parseInt32 h2).follows.bind fun _ => ?_
  refine (issues_parseInt32 h3).follows.bind fun _ => ?_
  refine (issues_parseInt32 h4).follows.bind fun _ => ?_
  refine (issues_parseInt32 h5).follows.bind fun _ => ?_
  refine (issues_parseInt32 h6).follows.bind fun _ => ?_
  refine (issues_parseInt32 h7).follows.bind fun _ => ?_
  refine (issues_parseInt32 h8).follows.bind fun _ => ?_
  refine (issues_parseInt32 h9).follows.bind fun _ => ?_
  refine ((issues_useNchw hcount hlayout).step (P := fun _ => True) fun nchw hnchw => ?_).follows
  have hlayout : nchw = self.poolNchw := by rw [hnchw, OperationsBase.poolNchw, if_pos hexplicit]
  subst hlayout
  exact (Follows.bind_quiet (follows_ite (fun _ => follows_inputSizes) fun _ => quiet_pure _)
    fun _ => quiet_pure _).issues

theorem follows_poolImplicitLocals (hexplicit : self.poolExplicit = false)
    (himplicit : self.poolImplicit = true)
    (huses : ∀ u ∈ poolLocalsUses self, u.Signed self none) :
    Follows Cmd.hazard (self.poolImplicitLocals cls)
      (sizeHazards self self.poolNchw ++
        paddingHazards (self.int32Input 1) (self.int32Input 2) (self.int32Input 3)) := by
  have hcount : self.inputsSize = 8 ↔ 7 < self.inputsSize := by
    simp only [OperationsBase.poolImplicit, decide_eq_true_eq] at himplicit
    omega
  rw [poolLocalsUses, if_neg (by rw [hexplicit]; decide), if_pos himplicit] at huses
  simp only [List.forall_mem_cons] at huses
  rcases huses with ⟨h1, h2, h3, h4, h5, h6, hlayout⟩
  refine ((issues_parseInt32 h1).step (P := fun _ => True) fun scheme hscheme => ?_).follows
  apply (issues_parseInt32 h2).step
  intro strideWidth hwidth
  apply (issues_parseInt32 h3).step
  intro strideHeight hheight
  refine (issues_parseInt32 h4).step fun _ _ => (issues_parseInt32 h5).step fun _ _ => ?_
  refine (issues_parseInt32 h6).step fun _ _ => ?_
  apply (issues_useNchw hcount hlayout).step
  intro nchw hnchw
  have hlayout : nchw = self.poolNchw := by
    rw [hnchw, OperationsBase.poolNchw, if_neg (by rw [hexplicit]; decide)]
  subst hlayout hscheme hwidth hheight
  refine Follows.issues (follows_inputSizes.bind fun _ => ?_)
  exact follows_poolImplicitPadding.bind_quiet fun _ => quiet_pure _

theorem follows_poolLocals (hsig : PoolSigned self) :
    Follows Cmd.hazard (self.poolLocals cls) (poolHazards cls self) := by
  unfold OperationsBase.poolLocals poolHazards
  cases hexplicit : self.poolExplicit with
  | true => exact follows_poolExplicitLocals hexplicit hsig.uses
  | false =>
      have himplicit : self.poolImplicit = true := by simpa [hexplicit] using hsig.count
      simp only [himplicit, Bool.false_eq_true, if_false, if_true]
      exact follows_poolImplicitLocals hexplicit himplicit hsig.uses

theorem calm_poolAttrs {l : PoolLocals} : Quiet Cmd.hazard (OperationsBase.poolAttrs l) := by
  refine calm_readLocal.bind fun _ => calm_readLocal.bind fun _ => ?_
  refine calm_readLocal.bind fun _ => calm_readLocal.bind fun _ => ?_
  refine calm_readLocal.bind fun _ => calm_readLocal.bind fun _ => ?_
  refine calm_readLocal.bind fun _ => calm_readLocal.bind fun _ => ?_
  exact calm_readLocal.bind fun _ => quiet_pure _

/-- The activation and the transposition back. -/
theorem calm_poolTail {node : Node} {activationFn : Option Int} {useNchw : Bool} :
    Quiet Cmd.hazard (do
      let activationFn ← readLocal activationFn
      let outputNode ← applyActivation node activationFn
      transposeUnless useNchw .nchwNhwc outputNode) :=
  calm_readLocal.bind fun _ => calm_applyActivation.bind fun _ => calm_transposeUnless

theorem AveragePool2D.createNode_hazards (hsig : PoolSigned self) :
    Follows Cmd.hazard (AveragePool2D.createNode self)
      (poolHazards AveragePool2D.cls self) := by
  refine (calm_tensor hsig.node (by decide)).bind fun _ => ?_
  refine (follows_poolLocals hsig).bind_quiet fun _ => calm_transposeUnless.bind fun _ => ?_
  refine calm_poolAttrs.bind fun _ => Quiet.bind (quiet_perform rfl) fun _ => ?_
  exact calm_poolTail

theorem MaxPool2d.createNode_hazards (hsig : PoolSigned self) :
    Follows Cmd.hazard (MaxPool2d.createNode self) (poolHazards MaxPool2d.cls self) := by
  refine (follows_poolLocals hsig).bind_quiet fun _ => ?_
  refine (calm_tensor hsig.node (by decide)).bind fun _ => calm_transposeUnless.bind fun _ => ?_
  refine calm_poolAttrs.bind fun _ => Quiet.bind (quiet_perform rfl) fun _ => ?_
  exact calm_poolTail

theorem L2Pooling2D.createNode_hazards (hsig : PoolSigned self) :
    Follows Cmd.hazard (L2Pooling2D.createNode self) (poolHazards L2Pooling2D.cls self) := by
  refine (follows_poolLocals hsig).bind_quiet fun _ => ?_
  refine (calm_tensor hsig.node (by decide)).bind fun _ => ?_
  refine Quiet.bind (quiet_perform rfl) fun _ => calm_transposeUnless.bind fun _ => ?_
  refine calm_poolAttrs.bind fun _ => Quiet.bind (quiet_perform rfl) fun _ => ?_
  exact Quiet.bind (quiet_perform rfl) fun _ => calm_poolTail

theorem harmful_sizeHazards {useNchw : Bool} :
    ∀ h ∈ sizeHazards self useNchw, h.harmful = true := by
  unfold sizeHazards
  rw [List.forall_mem_append]
  constructor
  · split <;> simp [Hazard.harmful]
  · split <;> simp [Hazard.harmful]

@[simp]
theorem sizeHazards_eq_nil {useNchw : Bool} : sizeHazards self useNchw = [] ↔
    (if useNchw then 3 else 2) < (self.getInputOperandDimensions 0).length := by
  unfold sizeHazards
  cases useNchw <;>
    simp only [Bool.false_eq_true, if_false, if_true, List.append_eq_nil_iff, ite_eq_left_iff,
      List.cons_ne_nil, imp_false, not_lt]
  all_goals omega

theorem harmful_poolHazards : ∀ h ∈ poolHazards cls self, h.harmful = true := by
  unfold poolHazards
  split
  · split
    · exact harmful_sizeHazards
    · simp
  · exact List.forall_mem_append.mpr ⟨harmful_sizeHazards, harmful_paddingHazards⟩

theorem poolHazards_eq_nil : poolHazards cls self = [] ↔ PoolDefined cls self := by
  have hiff : PoolDefined cls self ↔
      (self.poolExplicit = false ∨ cls.readsExplicitSizes = true →
        (if self.poolNchw then 3 else 2) < (self.getInputOperandDimensions 0).length) ∧
      (self.poolExplicit = false → self.int32Input 1 = 1 →
        self.int32Input 2 ≠ 0 ∧ self.int32Input 3 ≠ 0) :=
    ⟨fun h => ⟨h.sizes, h.strides⟩, fun h => ⟨h.1, h.2⟩⟩
  rw [hiff]
  unfold poolHazards
  cases self.poolExplicit <;> cases cls.readsExplicitSizes <;> simp

/-- **Pooling.**  The same for a class that has the hazards of its sizes and
strides. -/
theorem pool_defined_iff {node : Gen Node} (h : Follows Cmd.hazard node (poolHazards cls self))
    (splitsIntoNone : Bool) :
    (∀ ng : Ngraph, ng.Splits splitsIntoNone → ∀ nodes,
        Defined (exec (answer ng) node nodes)) ↔ PoolDefined cls self := by
  rw [defined_iff_hazards h, harmless_iff_nil harmful_poolHazards, poolHazards_eq_nil]

end Pool

end NnHal
