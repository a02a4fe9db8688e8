import NnHal.NgraphNetworkCreator

/-!
# What validation reads

A `validate` method looks at the types and dimensions of its operands, and four
classes also read constants: `CHANNEL_SHUFFLE` its axis, the two ROI classes
their ratios, `STRIDED_SLICE` its masks and bounds.  `validateUses` lists these
reads for every class, in the order in which they happen, and `Validates` says
that a program makes them and does nothing else that could fail: it looks no
other pool up, builds no node and does not stop.
-/

namespace NnHal

open Command Runs

/-! ## What a `validate` does -/

/-- The events of a validation: a pool looked up past the end, and anything that
is neither a fault nor a read. -/
inductive ValidationEvent
  | poolFault (index : Nat)
  | other
  deriving DecidableEq, Repr

def Cmd.validation : Cmd → Option ValidationEvent
  | .fault (.poolIndex index) => some (.poolFault index)
  | .fault _ | .readOperand _ => none
  | _ => some .other

namespace NnapiModelInfo

variable (info : NnapiModelInfo)

/-- The pool of a `CONSTANT_REFERENCE`, where it is not mapped. -/
def poolFaults (operand : Nat) : List ValidationEvent :=
  let op := info.getOperand operand
  if op.lifetime = .constantReference ∧ info.mPoolInfos.length ≤ op.location.poolIndex then
    [.poolFault op.location.poolIndex]
  else []

/-- The operand passes the assertion of `getOperandMemory`. -/
def Readable (operand : Nat) : Prop :=
  (info.getOperand operand).lifetime ≠ .subgraph ∧
    ((info.getOperand operand).lifetime = .constantCopy →
      (info.getOperand operand).location.poolIndex = 0)

instance (operand : Nat) : Decidable (info.Readable operand) :=
  inferInstanceAs (Decidable (_ ∧ _))

end NnapiModelInfo

/-- The operand a use reads is of the type it is read as: what the check of the
operation's signature gives. -/
def Use.Fits (self : OperationsBase) : Use → Prop
  | .scalar T input =>
      self.sModelInfo.Readable (self.inputIndex input) ∧
        self.sModelInfo.operandLength (self.inputIndex input) = T.size
  | .vector T input =>
      self.sModelInfo.Readable (self.inputIndex input) ∧
        self.sModelInfo.operandLength (self.inputIndex input) / T.size * T.size =
          self.sModelInfo.operandLength (self.inputIndex input)
  | .channelQuant input => (self.getInputOperand input).channelQuant.isSome = true
  | _ => True

instance (self : OperationsBase) (u : Use) : Decidable (u.Fits self) :=
  match u with
  | .scalar .. | .vector .. => inferInstanceAs (Decidable (_ ∧ _))
  | .channelQuant _ => inferInstanceAs (Decidable (_ = true))
  | .node .. | .rawOutput .. | .remove .. | .dequantize .. | .set .. => .isTrue trivial

section Follows

variable {info : NnapiModelInfo} {self : OperationsBase} {α : Type}

/-- The faults of the pools are all that is seen. -/
theorem validation_getOperandMemory {operand : Nat} (h : info.Readable operand) :
    Follows Cmd.validation (info.getOperandMemory operand) (info.poolFaults operand) := by
  rcases h with ⟨hsubgraph, hcopy⟩
  unfold NnapiModelInfo.getOperandMemory NnapiModelInfo.poolFaults
  refine Quiet.bind (quiet_perform rfl) fun _ => ?_
  cases hl : (info.getOperand operand).lifetime with
  | subgraph => exact absurd hl hsubgraph
  | constantCopy => simp [hl, nnAssert, hcopy hl]
  | constantReference =>
      rcases Nat.lt_or_ge (info.getOperand operand).location.poolIndex info.mPoolInfos.length
        with hlt | hge
      · simp [hl, hlt]
      · simp only [hl, hge, List.getElem?_eq_none, and_self, if_true]
        exact follows_perform_bind rfl fun _ => quiet_pure _
  | temporaryVariable | subgraphInput | subgraphOutput | noValue => simp [hl]

/-- A scalar that fits is read, and its value given. -/
theorem validation_parseOperationInput {T : CType} {input : Nat}
    (h : (Use.scalar T input).Fits self) :
    Follows Cmd.validation (self.parseOperationInput T input)
      (self.sModelInfo.poolFaults (self.inputIndex input)) := by
  rcases h with ⟨hreadable, hlength⟩
  rw [← List.append_nil (self.sModelInfo.poolFaults _)]
  refine (validation_getOperandMemory hreadable).bind_yields
    (NnapiModelInfo.yields_getOperandMemory _) fun m hm => ?_
  subst hm
  simp only [NnapiModelInfo.getConstFromBuffer, nnAssert, hlength, decide_true, if_true,
    pure_bind]
  cases self.sModelInfo.operandBuffer (self.inputIndex input) with
  | none => exact Quiet.bind (quiet_perform rfl) fun _ => quiet_pure _
  | some bytes => exact quiet_pure _

/-- So is a vector. -/
theorem validation_getConstVecInput {T : CType} {input : Nat}
    (h : (Use.vector T input).Fits self) :
    Follows Cmd.validation (self.getConstVecInput T input)
      (self.sModelInfo.poolFaults (self.inputIndex input)) := by
  rcases h with ⟨hreadable, hlength⟩
  rw [← List.append_nil (self.sModelInfo.poolFaults _)]
  refine (validation_getOperandMemory hreadable).bind_yields
    (NnapiModelInfo.yields_getOperandMemory _) fun m hm => ?_
  subst hm
  simp only [NnapiModelInfo.getConstVecFromBuffer, nnAssert, hlength, decide_true, if_true,
    pure_bind]
  cases self.sModelInfo.operandBuffer (self.inputIndex input) with
  | none =>
      refine Quiet.bind ?_ fun _ => quiet_pure _
      exact quiet_ite (quiet_perform rfl) (quiet_pure _)
  | some bytes => exact quiet_pure _

end Follows

/-- The fault of a use of an unmapped pool. -/
def Use.poolFaults (self : OperationsBase) (u : Use) : List ValidationEvent :=
  match u with
  | .scalar _ input | .vector _ input => self.sModelInfo.poolFaults (self.inputIndex input)
  | _ => []

/-- The program makes these uses of its operands and nothing else that matters to
a validation. -/
def Validates (self : OperationsBase) {α : Type} (p : Gen α) (us : List Use) : Prop :=
  Follows Cmd.validation p (us.flatMap (Use.poolFaults self))

/-! ## The classes that read constants -/

/-- The axis only. -/
def ChannelShuffle.validateUses (self : OperationsBase) : List Use :=
  let inputRank := (self.getInputOperandDimensions 0).length
  if inputRank > 4 ∨ inputRank ≤ 0 then [] else [.scalar .int32 2]

/-- The two ratios of a region. -/
def OperationsBase.ratioUses : List Use := [.scalar .float32 5, .scalar .float32 6]

def ROIAlign.validateUses (self : OperationsBase) : List Use :=
  if self.checkOutputOperandType 0 .tensorFloat32 ∧
      ¬ (self.isZeroSizedInput 0 ∨ self.isZeroSizedInput 1 ∨ self.isZeroSizedInput 2) ∧
      self.checkInputOperandType 0 .tensorFloat32 ∧
      self.checkInputOperandType 1 .tensorFloat32 then OperationsBase.ratioUses
  else []

def ROIPooling.validateUses (self : OperationsBase) : List Use :=
  if self.checkOutputOperandType 0 .tensorFloat32 ∧
      self.checkInputOperandType 0 .tensorFloat32 ∧
      self.checkInputOperandType 1 .tensorFloat32 then OperationsBase.ratioUses
  else []

/-- The mask of `StridedSlice::validate` as it is read. -/
def StridedSlice.shrinkMask (self : OperationsBase) : Int :=
  self.sModelInfo.scalarValue .int32 (self.inputIndex 6)

/-- The bits that `getMaskBits` leaves. -/
def StridedSlice.maskBitsFrom : Nat → Int → Nat → List Int → List Int
  | 0, _, _, bits => bits
  | fuel + 1, maskValue, i, bits =>
      if maskValue = 0 then bits
      else StridedSlice.maskBitsFrom fuel (maskValue.tdiv 2) (i + 1)
        (bits.set i (if maskValue.tmod 2 = 0 then 0 else 1))

def StridedSlice.maskBits (maskValue : Int) (vecSize : Nat) : List Int :=
  StridedSlice.maskBitsFrom 32 maskValue 0 (List.replicate vecSize 0)

/-- The reads of the loop over the axes: the strides at the first axis the mask
selects, then the bounds unless the stride is negative, then the next axis
unless the slice is too wide. -/
def StridedSlice.axesUses (self : OperationsBase) (bits : List Int) : List Nat → List Use
  | [] => []
  | i :: axes =>
      if bits.getD i 0 = 0 then StridedSlice.axesUses self bits axes
      else
        let vector := fun input => self.sModelInfo.vectorValue .int32 (self.inputIndex input)
        let size := toInt32 ((vector 1).getD i default - (vector 2).getD i default)
        .vector .int32 3 ::
          if (vector 3).getD i default < 0 then []
          else .vector .int32 1 :: .vector .int32 2 ::
            if size > 1 ∨ size < -1 then [] else StridedSlice.axesUses self bits axes

def StridedSlice.validateUses (self : OperationsBase) : List Use :=
  let inputRank := (self.getInputOperandDimensions 0).length
  if inputRank > 4 ∨ ¬ self.isInputConst 1 ∨ ¬ self.isInputConst 2 ∨ ¬ self.isInputConst 3 then []
  else .scalar .int32 6 ::
    StridedSlice.axesUses self
      (StridedSlice.maskBits (StridedSlice.shrinkMask self) inputRank) (List.range inputRank)

section Validates

variable {self : OperationsBase} {α β : Type} {f : α → Gen β} {us : List Use}

theorem validation_fault {e : Fault} (he : (Cmd.fault e).validation = none) :
    Quiet Cmd.validation (fault e) := quiet_perform he

/-- An index past the end is no event here. -/
theorem validation_elementAt {γ : Type} [Inhabited γ] {v : List γ} {i : Nat} :
    Quiet Cmd.validation (elementAt v i) := by
  unfold elementAt
  cases v[i]? with
  | none => exact Quiet.bind (validation_fault rfl) fun _ => quiet_pure _
  | some x => exact quiet_pure x

theorem validation_dimAt {dims : List Nat} {i : Nat} :
    Quiet Cmd.validation (dimAt dims i) := by
  unfold dimAt
  cases dims[i]? with
  | none => exact Quiet.bind (validation_fault rfl) fun _ => quiet_pure _
  | some d => exact quiet_pure d

namespace Validates

theorem pure (a : α) : Validates self (Pure.pure a) [] := quiet_pure a

/-- A scalar whose value the rest of the validation branches on. -/
theorem scalar {T : CType} {input : Nat} {f : Int → Gen β}
    (h : (Use.scalar T input).Fits self)
    (hf : Validates self (f (self.sModelInfo.scalarValue T (self.inputIndex input))) us) :
    Validates self (self.parseOperationInput T input >>= f) (.scalar T input :: us) :=
  (validation_parseOperationInput h).bind_yields (NnapiModelInfo.yields_getConstOperand T _)
    fun _ hv => hv ▸ hf

theorem vector {T : CType} {input : Nat} {f : List Int → Gen β}
    (h : (Use.vector T input).Fits self)
    (hf : Validates self (f (self.sModelInfo.vectorValue T (self.inputIndex input))) us) :
    Validates self (self.getConstVecInput T input >>= f) (.vector T input :: us) :=
  (validation_getConstVecInput h).bind_yields (NnapiModelInfo.yields_getConstVecOperand T _)
    fun _ hv => hv ▸ hf

/-- A step without an event, whose result the rest depends on. -/
theorem step {p : Gen α} {Q : α → Prop} (hp : Quiet Cmd.validation p) (hy : Yields Q p)
    (hf : ∀ a, Q a → Validates self (f a) us) : Validates self (p >>= f) us :=
  Follows.bind_yields hp hy hf

end Validates

end Validates

/-- The axis is read, whatever the rank is. -/
theorem ChannelShuffle.validate_validates {self : OperationsBase}
    (h : (Use.scalar .int32 2).Fits self) :
    Validates self (ChannelShuffle.validate self) (ChannelShuffle.validateUses self) := by
  unfold ChannelShuffle.validate ChannelShuffle.validateUses
  simp only
  split
  · exact .pure _
  · exact .scalar h (.pure _)

/-- Both ratios are read before they are compared. -/
theorem OperationsBase.equalRatios_validates {self : OperationsBase}
    (h : ∀ u ∈ OperationsBase.ratioUses, u.Fits self) :
    Validates self self.equalRatios OperationsBase.ratioUses := by
  have hheight := h (.scalar .float32 5) (by simp [OperationsBase.ratioUses])
  have hwidth := h (.scalar .float32 6) (by simp [OperationsBase.ratioUses])
  exact .scalar hheight (.scalar hwidth (.pure _))

theorem ROIAlign.validate_validates {self : OperationsBase}
    (h : self.checkInputOperandType 0 .tensorFloat32 = true →
      ∀ u ∈ OperationsBase.ratioUses, u.Fits self) :
    Validates self (ROIAlign.validate self) (ROIAlign.validateUses self) := by
  unfold ROIAlign.validate ROIAlign.validateUses
  by_cases houtput : self.checkOutputOperandType 0 .tensorFloat32 = true
  · by_cases hzero : self.isZeroSizedInput 0 = true ∨ self.isZeroSizedInput 1 = true ∨
        self.isZeroSizedInput 2 = true
    · simpa [houtput, hzero] using Validates.pure false
    · by_cases hinput : self.checkInputOperandType 0 .tensorFloat32 = true
      · by_cases hrois : self.checkInputOperandType 1 .tensorFloat32 = true
        · simpa [houtput, hzero, hinput, hrois] using
            OperationsBase.equalRatios_validates (h hinput)
        · simpa [houtput, hzero, hinput, hrois] using Validates.pure false
      · simpa [houtput, hzero, hinput] using Validates.pure false
  · simpa [houtput] using Validates.pure false

theorem ROIPooling.validate_validates {self : OperationsBase}
    (h : self.checkInputOperandType 0 .tensorFloat32 = true →
      ∀ u ∈ OperationsBase.ratioUses, u.Fits self) :
    Validates self (ROIPooling.validate self) (ROIPooling.validateUses self) := by
  unfold ROIPooling.validate ROIPooling.validateUses
  by_cases houtput : self.checkOutputOperandType 0 .tensorFloat32 = true
  · by_cases hinput : self.checkInputOperandType 0 .tensorFloat32 = true
    · by_cases hrois : self.checkInputOperandType 1 .tensorFloat32 = true
      · simpa [houtput, hinput, hrois] using OperationsBase.equalRatios_validates (h hinput)
      · simpa [houtput, hinput, hrois] using Validates.pure false
    · simpa [houtput, hinput] using Validates.pure false
  · simpa [houtput] using Validates.pure false

namespace StridedSlice

theorem getMaskBitsFrom_quiet (fuel : Nat) (maskValue : Int) (i : Nat) (bits : List Int) :
    Quiet Cmd.validation (getMaskBitsFrom fuel maskValue i bits) := by
  induction fuel generalizing maskValue i bits with
  | zero => exact quiet_pure _
  | succ fuel ih =>
      refine quiet_ite (quiet_pure _) (Quiet.bind ?_ fun _ => ih _ _ _)
      exact quiet_ite (validation_fault rfl) (quiet_pure _)

theorem getMaskBitsFrom_yields (fuel : Nat) (maskValue : Int) (i : Nat) (bits : List Int) :
    Yields (fun b => b = maskBitsFrom fuel maskValue i bits)
      (getMaskBitsFrom fuel maskValue i bits) := by
  induction fuel generalizing maskValue i bits with
  | zero => rfl
  | succ fuel ih =>
      unfold getMaskBitsFrom maskBitsFrom
      split
      · rfl
      · exact (yields_true _).bind fun _ _ => ih _ _ _

theorem validateAxes_validates {self : OperationsBase} (bits : List Int) (axes : List Nat)
    (hfits : ∀ input ∈ [1, 2, 3], (Use.vector .int32 input).Fits self) :
    Validates self (validateAxes self bits axes) (axesUses self bits axes) := by
  induction axes with
  | nil => exact .pure true
  | cons i axes ih =>
      unfold validateAxes axesUses
      split
      · exact ih
      · refine .vector (hfits 3 (by simp)) ?_
        refine .step validation_elementAt (yields_elementAt _ i) ?_
        intro stride heq
        subst heq
        split
        · exact .pure false
        · refine .vector (hfits 1 (by simp)) (.vector (hfits 2 (by simp)) ?_)
          refine .step validation_elementAt (yields_elementAt _ i) ?_
          intro first heq
          subst heq
          refine .step validation_elementAt (yields_elementAt _ i) ?_
          intro last heq
          subst heq
          simp only
          split
          · exact .pure false
          · exact ih

theorem validate_validates {self : OperationsBase}
    (hvectors : ∀ input ∈ [1, 2, 3], (Use.vector .int32 input).Fits self)
    (hmask : (Use.scalar .int32 6).Fits self) :
    Validates self (validate self) (validateUses self) := by
  unfold validate validateUses
  simp only
  by_cases hrank : (self.getInputOperandDimensions 0).length > 4
  · simpa [hrank] using Validates.pure false
  · by_cases h1 : self.isInputConst 1 = true
    · by_cases h2 : self.isInputConst 2 = true
      · by_cases h3 : self.isInputConst 3 = true
        · simp only [hrank, h1, h2, h3, not_true_eq_false, or_self, if_false]
          refine .scalar hmask (.step (getMaskBitsFrom_quiet _ _ _ _)
            (getMaskBitsFrom_yields _ _ _ _) ?_)
          intro bits heq
          subst heq
          exact validateAxes_validates _ _ hvectors
        · simpa [hrank, h1, h2, h3] using Validates.pure false
      · simpa [hrank, h1, h2] using Validates.pure false
    · simpa [hrank, h1] using Validates.pure false

end StridedSlice

/-! ## Every class -/

/-- The operands of an operation that its `validate` reads, as far as the
operation's type and inputs tell. -/
def validateUses : OperationType → OperationsBase → List Use
  | .channelShuffle, self => ChannelShuffle.validateUses self
  | .roiAlign, self => ROIAlign.validateUses self
  | .roiPooling, self => ROIPooling.validateUses self
  | .stridedSlice, self => StridedSlice.validateUses self
  | _, _ => []

/-- The uses whose operands `validate` takes to be of the type the operation's
signature gives them. -/
def validateSignature : OperationType → OperationsBase → List Use
  | .channelShuffle, _ => [.scalar .int32 2]
  | .roiAlign, self | .roiPooling, self =>
      if self.checkInputOperandType 0 .tensorFloat32 then OperationsBase.ratioUses else []
  | .stridedSlice, _ =>
      [.vector .int32 1, .vector .int32 2, .vector .int32 3, .scalar .int32 6]
  | .conv2d, self | .depthwiseConv2d, self | .groupedConv2d, self | .transposeConv2d, self =>
      if self.checkInputOperandType 1 .tensorQuant8SymmPerChannel then [.channelQuant 1] else []
  | _, _ => []

/-- The signature of the operation has been checked. -/
def SignatureChecked (type : OperationType) (self : OperationsBase) : Prop :=
  ∀ u ∈ validateSignature type self, u.Fits self

instance (type : OperationType) (self : OperationsBase) : Decidable (SignatureChecked type self) :=
  inferInstanceAs (Decidable (∀ u ∈ _, _))

/-- The channel of the filter is compared, not read. -/
theorem convChannelDim_validates {self : OperationsBase} {channelDim : Nat}
    (h : self.checkInputOperandType 1 .tensorQuant8SymmPerChannel = true →
      (Use.channelQuant 1).Fits self) :
    Validates self (convChannelDim self channelDim) [] := by
  unfold convChannelDim
  split
  · rename_i hchannel
    obtain ⟨params, hparams⟩ := Option.isSome_iff_exists.mp (h hchannel)
    rw [OperationsBase.channelQuant, hparams]
    exact .pure _
  · exact .pure true

section Conv

variable {self : OperationsBase}
  (h : self.checkInputOperandType 1 .tensorQuant8SymmPerChannel = true →
    (Use.channelQuant 1).Fits self)
include h

theorem Conv2d.validate_validates : Validates self (Conv2d.validate self) [] := by
  unfold Conv2d.validate
  refine quiet_ite (quiet_pure _) (quiet_ite (quiet_pure _) ?_)
  exact convChannelDim_validates h

theorem DepthwiseConv2d.validate_validates : Validates self (DepthwiseConv2d.validate self) [] := by
  unfold DepthwiseConv2d.validate
  refine quiet_ite (quiet_pure _) (Quiet.bind validation_dimAt fun filter => ?_)
  exact quiet_ite (quiet_pure _) (convChannelDim_validates h)

theorem GroupedConv2d.validate_validates : Validates self (GroupedConv2d.validate self) [] := by
  unfold GroupedConv2d.validate
  exact quiet_ite (quiet_pure _) (convChannelDim_validates h)

theorem TransposeConv2D.validate_validates :
    Validates self (TransposeConv2D.validate self) [] := by
  unfold TransposeConv2D.validate
  refine quiet_ite (quiet_pure _) (quiet_ite (quiet_pure _) ?_)
  apply Quiet.bind (convChannelDim_validates h)
  intro channelDim
  exact quiet_ite (quiet_pure _) (quiet_pure _)

end Conv

theorem validate_validates {type : OperationType} {cls : OperationClass}
    (hcls : OperationsFactory.getOperation type = some cls) {self : OperationsBase}
    (h : SignatureChecked type self) :
    Validates self (cls.validate self) (validateUses type self) := by
  cases type <;> cases hcls
  case channelShuffle => exact ChannelShuffle.validate_validates (h _ List.mem_cons_self)
  case roiAlign =>
    refine ROIAlign.validate_validates fun hinput u hu => h u ?_
    simpa [validateSignature, hinput] using hu
  case roiPooling =>
    refine ROIPooling.validate_validates fun hinput u hu => h u ?_
    simpa [validateSignature, hinput] using hu
  case stridedSlice =>
    refine StridedSlice.validate_validates (fun input hinput => h _ ?_) (h _ ?_)
    · simp only [validateSignature]
      rcases List.mem_cons.mp hinput with rfl | hinput <;> simp_all
    · simp [validateSignature]
  case conv2d =>
    exact Conv2d.validate_validates fun hquant => h _ (by simp [validateSignature, hquant])
  case depthwiseConv2d =>
    exact DepthwiseConv2d.validate_validates fun hquant => h _ (by simp [validateSignature, hquant])
  case groupedConv2d =>
    exact GroupedConv2d.validate_validates fun hquant => h _ (by simp [validateSignature, hquant])
  case transposeConv2d =>
    exact TransposeConv2D.validate_validates fun hquant => h _ (by simp [validateSignature, hquant])
  case prelu => exact quiet_ite (quiet_pure _) (quiet_ite (quiet_pure _) (quiet_pure _))
  case batchToSpaceNd | fullyConnected | l2Normalization | transpose | lstm =>
    exact quiet_ite (quiet_pure _) (quiet_pure _)
  case spaceToBatchNd | pad | padV2 =>
    exact quiet_ite (quiet_pure _) (quiet_ite (quiet_pure _) (quiet_pure _))
  case instanceNormalization =>
    exact quiet_ite (quiet_pure _)
      (quiet_ite (quiet_pure _) (quiet_ite (quiet_pure _) (quiet_pure _)))
  all_goals exact quiet_pure _

end NnHal
