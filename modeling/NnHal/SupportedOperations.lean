import NnHal.ValidationReads

/-!
# The verdicts before and during preparation

`getSupportedOperations` and `prepareModel` run the same `validate` methods.
Only the second maps the pools of the model first, so a `validate` that reads a
constant kept in a pool indexes an empty vector in the first.

Where none of those reads is of a `CONSTANT_REFERENCE`, the two programs are the
same; where one is, the first one leaves the vector.
-/

namespace NnHal

open Command Runs

/-! ## The same operation without pools -/

/-- The model before `initRuntimeInfo`. -/
def NnapiModelInfo.unmapped (info : NnapiModelInfo) : NnapiModelInfo :=
  { info with mPoolInfos := [] }

def OperationsBase.unmapped (self : OperationsBase) : OperationsBase :=
  { self with sModelInfo := self.sModelInfo.unmapped }

/-- The use reads a constant kept in a pool. -/
def Use.ReadsPool (self : OperationsBase) : Use → Prop
  | .scalar _ input | .vector _ input => (self.getInputOperand input).lifetime = .constantReference
  | _ => False

instance (self : OperationsBase) (u : Use) : Decidable (u.ReadsPool self) :=
  match u with
  | .scalar .. | .vector .. => instDecidableEqOperandLifeTime _ _
  | .node .. | .rawOutput .. | .remove .. | .dequantize .. | .channelQuant .. | .set .. =>
      .isFalse not_false

section Unmapped

variable {self : OperationsBase}

theorem getOperandMemory_unmapped {info : NnapiModelInfo} {operand : Nat}
    (h : (info.getOperand operand).lifetime ≠ .constantReference) :
    info.unmapped.getOperandMemory operand = info.getOperandMemory operand := by
  have hoperand : info.unmapped.getOperand operand = info.getOperand operand := rfl
  unfold NnapiModelInfo.getOperandMemory
  rw [hoperand]
  cases hl : (info.getOperand operand).lifetime <;> simp only [hl]
  case constantCopy => rfl
  case constantReference => exact absurd hl h

theorem operandBuffer_unmapped {info : NnapiModelInfo} {operand : Nat}
    (h : (info.getOperand operand).lifetime ≠ .constantReference) :
    info.unmapped.operandBuffer operand = info.operandBuffer operand := by
  have hoperand : info.unmapped.getOperand operand = info.getOperand operand := rfl
  unfold NnapiModelInfo.operandBuffer
  rw [hoperand]
  cases hl : (info.getOperand operand).lifetime <;> simp only [hl]
  case constantCopy => rfl
  case constantReference => exact absurd hl h

theorem parseOperationInput_unmapped {T : CType} {input : Nat}
    (h : ¬ (Use.scalar T input).ReadsPool self) :
    self.unmapped.parseOperationInput T input = self.parseOperationInput T input := by
  have hmemory := @getOperandMemory_unmapped self.sModelInfo _ h
  exact congrArg (· >>= fun m => NnapiModelInfo.getConstFromBuffer T _ m.1 m.2) hmemory

theorem getConstVecInput_unmapped {T : CType} {input : Nat}
    (h : ¬ (Use.vector T input).ReadsPool self) :
    self.unmapped.getConstVecInput T input = self.getConstVecInput T input := by
  have hmemory := @getOperandMemory_unmapped self.sModelInfo _ h
  exact congrArg (· >>= fun m => NnapiModelInfo.getConstVecFromBuffer T _ m.1 m.2) hmemory

theorem scalarValue_unmapped {T : CType} {input : Nat}
    (h : ¬ (Use.scalar T input).ReadsPool self) :
    self.unmapped.sModelInfo.scalarValue T (self.unmapped.inputIndex input) =
      self.sModelInfo.scalarValue T (self.inputIndex input) := by
  have hbuffer := @operandBuffer_unmapped self.sModelInfo _ h
  exact congrArg (fun b => (b.map T.decode).getD 0) hbuffer

theorem vectorValue_unmapped {T : CType} {input : Nat}
    (h : ¬ (Use.vector T input).ReadsPool self) :
    self.unmapped.sModelInfo.vectorValue T (self.unmapped.inputIndex input) =
      self.sModelInfo.vectorValue T (self.inputIndex input) := by
  have hbuffer := @operandBuffer_unmapped self.sModelInfo _ h
  unfold NnapiModelInfo.vectorValue
  rw [show self.unmapped.sModelInfo.operandBuffer (self.unmapped.inputIndex input) =
    self.sModelInfo.operandBuffer (self.inputIndex input) from hbuffer]
  rfl

/-- The two lists of reads are the same as far as a read of a pool. -/
inductive SameReads (self : OperationsBase) : List Use → List Use → Prop
  | refl (us : List Use) : SameReads self us us
  | pool {u : Use} (h : u.ReadsPool self) (us vs : List Use) : SameReads self (u :: us) (u :: vs)
  | cons (u : Use) {us vs : List Use} (h : SameReads self us vs) :
      SameReads self (u :: us) (u :: vs)

/-- One of them reads a pool where the other one does. -/
theorem SameReads.readsPool_iff {us vs : List Use} (h : SameReads self us vs) :
    (∀ u ∈ us, ¬ u.ReadsPool self) ↔ ∀ u ∈ vs, ¬ u.ReadsPool self := by
  induction h with
  | refl us => rfl
  | pool h us vs =>
      constructor
      · intro hus
        exact absurd h (hus _ List.mem_cons_self)
      · intro hvs
        exact absurd h (hvs _ List.mem_cons_self)
  | cons u h ih => simp only [List.mem_cons, forall_eq_or_imp, ih]

theorem SameReads.unless {b c : Prop} [Decidable b] [Decidable c] (hbc : b = c) {us vs : List Use}
    (h : SameReads self us vs) :
    SameReads self (if b then [] else us) (if c then [] else vs) := by
  subst hbc
  by_cases hb : b
  · rw [if_pos hb, if_pos hb]
    exact .refl _
  · rwa [if_neg hb, if_neg hb]

namespace StridedSlice

theorem axesUses_unmapped (bits : List Int) (axes : List Nat) :
    SameReads self (axesUses self bits axes) (axesUses self.unmapped bits axes) := by
  induction axes with
  | nil => exact .refl _
  | cons i axes ih =>
      unfold axesUses
      by_cases hbit : bits.getD i 0 = 0
      · simpa only [hbit, if_true] using ih
      · simp only [hbit, if_false]
        by_cases h3 : (Use.vector .int32 3).ReadsPool self
        · exact .pool h3 _ _
        · rw [vectorValue_unmapped h3]
          refine .cons _ ?_
          refine .unless rfl ?_
          by_cases h1 : (Use.vector .int32 1).ReadsPool self
          · exact .pool h1 _ _
          · refine .cons _ ?_
            by_cases h2 : (Use.vector .int32 2).ReadsPool self
            · exact .pool h2 _ _
            · simp only [vectorValue_unmapped h1, vectorValue_unmapped h2]
              exact .cons _ (.unless rfl ih)

theorem validateUses_unmapped :
    SameReads self (validateUses self) (validateUses self.unmapped) := by
  unfold validateUses
  refine .unless rfl ?_
  by_cases hmask : (Use.scalar .int32 6).ReadsPool self
  · exact .pool hmask _ _
  · refine .cons _ ?_
    unfold shrinkMask
    rw [scalarValue_unmapped hmask]
    exact axesUses_unmapped _ _

theorem validateAxes_unmapped {bits : List Int} {axes : List Nat}
    (h : ∀ u ∈ axesUses self bits axes, ¬ u.ReadsPool self) :
    validateAxes self.unmapped bits axes = validateAxes self bits axes := by
  induction axes with
  | nil => rfl
  | cons i axes ih =>
      unfold validateAxes
      unfold axesUses at h
      split
      · rename_i hbit
        rw [if_pos hbit] at h
        exact ih h
      · rename_i hbit
        simp only [hbit, if_false, List.mem_cons, forall_eq_or_imp] at h
        rw [getConstVecInput_unmapped h.1]
        refine Yields.bind_congr (NnapiModelInfo.yields_getConstVecOperand _ _) ?_
        intro strides heq
        subst heq
        refine Yields.bind_congr (yields_elementAt _ i) ?_
        intro stride heq
        subst heq
        split
        · rfl
        · rename_i hstride
          simp only [hstride, if_false, List.mem_cons, forall_eq_or_imp] at h
          rw [getConstVecInput_unmapped h.2.1, getConstVecInput_unmapped h.2.2.1]
          refine Yields.bind_congr (NnapiModelInfo.yields_getConstVecOperand _ _) ?_
          intro first heq
          subst heq
          refine Yields.bind_congr (NnapiModelInfo.yields_getConstVecOperand _ _) ?_
          intro last heq
          subst heq
          refine Yields.bind_congr (yields_elementAt _ i) ?_
          intro first heq
          subst heq
          refine Yields.bind_congr (yields_elementAt _ i) ?_
          intro last heq
          subst heq
          simp only
          split
          · rfl
          · rename_i hsize
            rw [if_neg hsize] at h
            exact ih h.2.2.2

theorem validate_unmapped (h : ∀ u ∈ validateUses self, ¬ u.ReadsPool self) :
    validate self.unmapped = validate self := by
  unfold validate
  apply ite_congr rfl (fun _ => rfl)
  intro hrank
  apply ite_congr rfl (fun _ => rfl)
  intro hbegin
  apply ite_congr rfl (fun _ => rfl)
  intro hend
  apply ite_congr rfl (fun _ => rfl)
  intro hstrides
  have hcond : ¬ ((self.getInputOperandDimensions 0).length > 4 ∨ ¬ self.isInputConst 1 ∨
      ¬ self.isInputConst 2 ∨ ¬ self.isInputConst 3) := by
    simp only [not_or]
    exact ⟨hrank, hbegin, hend, hstrides⟩
  simp only [validateUses, if_neg hcond, List.mem_cons, forall_eq_or_imp] at h
  rw [parseOperationInput_unmapped h.1]
  refine Yields.bind_congr (NnapiModelInfo.yields_getConstOperand _ _) ?_
  intro mask heq
  subst heq
  refine Yields.bind_congr (getMaskBitsFrom_yields _ _ _ _) ?_
  intro bits heq
  subst heq
  exact validateAxes_unmapped h.2

end StridedSlice

theorem ChannelShuffle.validate_unmapped (h : ∀ u ∈ validateUses self, ¬ u.ReadsPool self) :
    validate self.unmapped = validate self := by
  unfold validate
  refine ite_congr rfl (fun _ => rfl) fun hrank => ?_
  have haxis : ¬ (Use.scalar .int32 2).ReadsPool self :=
    h _ (by simp only [validateUses, if_neg hrank, List.mem_singleton])
  rw [parseOperationInput_unmapped haxis]
  rfl

theorem OperationsBase.equalRatios_unmapped
    (h : ∀ u ∈ OperationsBase.ratioUses, ¬ u.ReadsPool self) :
    self.unmapped.equalRatios = self.equalRatios := by
  have hheight := h (.scalar .float32 5) (by simp [OperationsBase.ratioUses])
  have hwidth := h (.scalar .float32 6) (by simp [OperationsBase.ratioUses])
  unfold OperationsBase.equalRatios
  rw [parseOperationInput_unmapped hheight, parseOperationInput_unmapped hwidth]

theorem ROIAlign.validate_unmapped (h : ∀ u ∈ validateUses self, ¬ u.ReadsPool self) :
    validate self.unmapped = validate self := by
  unfold validate
  apply ite_congr rfl (fun _ => rfl)
  intro houtput
  apply ite_congr rfl (fun _ => rfl)
  intro hzero
  apply ite_congr rfl (fun _ => rfl)
  intro hinput
  apply ite_congr rfl (fun _ => rfl)
  intro hrois
  apply OperationsBase.equalRatios_unmapped
  rwa [validateUses, if_pos ⟨not_not.mp houtput, hzero, not_not.mp hinput, not_not.mp hrois⟩] at h

theorem ROIPooling.validate_unmapped (h : ∀ u ∈ validateUses self, ¬ u.ReadsPool self) :
    validate self.unmapped = validate self := by
  unfold validate
  apply ite_congr rfl (fun _ => rfl)
  intro houtput
  apply ite_congr rfl (fun _ => rfl)
  intro hinput
  apply ite_congr rfl (fun _ => rfl)
  intro hrois
  apply OperationsBase.equalRatios_unmapped
  rwa [validateUses, if_pos ⟨not_not.mp houtput, not_not.mp hinput, not_not.mp hrois⟩] at h

/-- An operation reads a pool without the mapping exactly when it does with it. -/
theorem validateUses_unmapped (type : OperationType) :
    SameReads self (validateUses type self) (validateUses type self.unmapped) := by
  cases type
  case stridedSlice => exact StridedSlice.validateUses_unmapped
  all_goals exact .refl _

/-- Where it reads none, the two validations are one program. -/
theorem validate_unmapped {type : OperationType} {cls : OperationClass}
    (hcls : OperationsFactory.getOperation type = some cls)
    (h : ∀ u ∈ validateUses type self, ¬ u.ReadsPool self) :
    cls.validate self.unmapped = cls.validate self := by
  cases type <;> cases hcls
  case channelShuffle => exact ChannelShuffle.validate_unmapped h
  case roiAlign => exact ROIAlign.validate_unmapped h
  case roiPooling => exact ROIPooling.validate_unmapped h
  case stridedSlice => exact StridedSlice.validate_unmapped h
  all_goals rfl

/-- The check of the signature does not look at the pools. -/
theorem signatureChecked_unmapped {type : OperationType} (h : SignatureChecked type self) :
    SignatureChecked type self.unmapped := by
  have hsignature : validateSignature type self.unmapped = validateSignature type self := by
    cases type <;> rfl
  intro u hu
  rw [hsignature] at hu
  have hfits := h u hu
  cases u <;> exact hfits

/-- Without the pools, a read of one leaves the vector. -/
theorem poolFaults_unmapped {u : Use} (h : u.ReadsPool self) :
    ∃ index, .poolFault index ∈ u.poolFaults self.unmapped := by
  cases u with
  | scalar T input | vector T input =>
      refine ⟨(self.getInputOperand input).location.poolIndex, ?_⟩
      have hlifetime : (self.unmapped.sModelInfo.getOperand
          (self.unmapped.inputIndex input)).lifetime = .constantReference := h
      simp only [Use.poolFaults, NnapiModelInfo.poolFaults, hlifetime, true_and]
      rw [if_pos (show self.unmapped.sModelInfo.mPoolInfos.length ≤ _ from Nat.zero_le _)]
      exact List.mem_singleton.mpr rfl
  | _ => exact absurd h id

end Unmapped

/-! ## The validation of one operation -/

theorem validation_accepts (ng : Ngraph) (c : Cmd) (nodes : NgraphNodes)
    (hc : c.validation ≠ some .other) : ∃ r, answer ng c nodes = .ok (r, nodes) := by
  cases c with
  | fault f => exact ⟨(), rfl⟩
  | readOperand operand => exact ⟨(), rfl⟩
  | _ => exact absurd rfl hc

theorem other_notMem_poolFaults (self : OperationsBase) (us : List Use) :
    .other ∉ us.flatMap (Use.poolFaults self) := by
  intro hother
  obtain ⟨u, -, hmem⟩ := List.mem_flatMap.mp hother
  cases u <;> simp only [Use.poolFaults, NnapiModelInfo.poolFaults, List.not_mem_nil] at hmem
  all_goals
    split at hmem
    · simp at hmem
    · cases hmem

/-- A validation that looks up these pools returns and changes no table. -/
theorem validation_runs_through {α : Type} {p : Gen α} {us : List ValidationEvent}
    (hp : Follows Cmd.validation p us) (hus : .other ∉ us) (ng : Ngraph) (nodes : NgraphNodes) :
    (∃ a, (exec (answer ng) p nodes).outcome = .ok a) ∧
      (exec (answer ng) p nodes).state = nodes ∧
        (exec (answer ng) p nodes).selected Cmd.validation = us := by
  have hharmless : ∀ u ∈ us, u ≠ .other := fun u hu hother => hus (hother ▸ hu)
  exact hp.runs_through hharmless
    (fun c s hc => validation_accepts ng c s fun hother => hc _ hother rfl) nodes

namespace NgraphNetworkCreator

/-- The operation at an index as its methods see it in a creator of its own. -/
def operationBase (info : NnapiModelInfo) (device : IntelDeviceType) (i : Nat) :
    OperationsBase where
  sModelInfo := info
  sPluginType := device
  mNnapiOperationIndex := i
  mDefaultOutputIndex := info.getOperationOutput i 0

/-- The program that gives the verdict on the operation at an index. -/
def verdictOf (info : NnapiModelInfo) (device : IntelDeviceType) (i : Nat) : Gen Bool :=
  let statics := OperationsFactory.statics device info
  OperationNode.validateForPlugin (operationNode info statics i) statics

/-- Its run. -/
def verdictRun (info : NnapiModelInfo) (device : IntelDeviceType) (ng : Ngraph) (i : Nat) :
    Ran NgraphNodes Cmd Stop Bool :=
  exec (answer ng) (verdictOf info device i) {}

/-- `getSupportedOperations` of a new creator. -/
def supportedRun (info : NnapiModelInfo) (device : IntelDeviceType) (ng : Ngraph) :
    Ran NgraphNodes Cmd Stop (List Bool) :=
  let (creator, statics) := construct info device
  exec (answer ng) (creator.getSupportedOperations statics) creator.mNgraphNodes

/-- `validateOperations` of a new creator. -/
def validateRun (info : NnapiModelInfo) (device : IntelDeviceType) (ng : Ngraph) :
    Ran NgraphNodes Cmd Stop Bool :=
  let (creator, statics) := construct info device
  exec (answer ng) (creator.validateOperations statics) creator.mNgraphNodes

/-- The reads of the operation's validation. -/
def operationReads (info : NnapiModelInfo) (device : IntelDeviceType) (i : Nat) : List Use :=
  validateUses (info.getOperation i).type (operationBase info device i)

/-- The signature of every operation has been checked. -/
def SignaturesChecked (info : NnapiModelInfo) (device : IntelDeviceType) : Prop :=
  ∀ i < info.getOperationsSize,
    SignatureChecked (info.getOperation i).type (operationBase info device i)

instance (info : NnapiModelInfo) (device : IntelDeviceType) :
    Decidable (SignaturesChecked info device) :=
  inferInstanceAs (Decidable (∀ i < _, _))

variable {info : NnapiModelInfo} {device : IntelDeviceType}

theorem verdictOf_validates {i : Nat}
    (h : SignatureChecked (info.getOperation i).type (operationBase info device i)) :
    Validates (operationBase info device i) (verdictOf info device i)
      (operationReads info device i) := by
  unfold verdictOf operationNode operationReads
  cases hcls : OperationsFactory.getOperation (info.getOperation i).type with
  | none =>
      have hreads : validateUses (info.getOperation i).type (operationBase info device i) = [] := by
        cases htype : (info.getOperation i).type <;> rw [htype] at hcls <;> cases hcls
        rfl
      rw [hreads]
      exact .pure false
  | some cls => exact validate_validates hcls h

theorem verdictOf_unmapped {i : Nat}
    (h : ∀ u ∈ operationReads info device i, ¬ u.ReadsPool (operationBase info device i)) :
    verdictOf info.unmapped device i = verdictOf info device i := by
  have htype : info.unmapped.getOperation i = info.getOperation i := rfl
  unfold verdictOf operationNode
  rw [htype]
  cases hcls : OperationsFactory.getOperation (info.getOperation i).type with
  | none => rfl
  | some cls => exact validate_unmapped hcls h

/-! ## The validation of a model -/

/-- The pools the validation of every operation looks up. -/
def modelPoolFaults (info : NnapiModelInfo) (device : IntelDeviceType) : List ValidationEvent :=
  (List.range info.getOperationsSize).flatMap fun i =>
    (operationReads info device i).flatMap (Use.poolFaults (operationBase info device i))

theorem getSupportedOperations_eq :
    (construct info device).1.getSupportedOperations (construct info device).2 =
      (List.range info.getOperationsSize).mapM (verdictOf info device) := by
  unfold getSupportedOperations construct
  rw [List.mapM_map]
  rfl

theorem getSupportedOperations_unmapped
    (h : ∀ i < info.getOperationsSize, ∀ u ∈ operationReads info device i,
      ¬ u.ReadsPool (operationBase info device i)) (ng : Ngraph) :
    supportedRun info.unmapped device ng = supportedRun info device ng := by
  have hmapM : ∀ l : List Nat, (∀ i ∈ l, i < info.getOperationsSize) →
      l.mapM (verdictOf info.unmapped device) = l.mapM (verdictOf info device) := by
    intro l hl
    induction l with
    | nil => rfl
    | cons i l ih =>
        rw [List.mapM_cons, List.mapM_cons, verdictOf_unmapped (h i (hl i List.mem_cons_self)),
          ih fun j hj => hl j (List.mem_cons_of_mem _ hj)]
  unfold supportedRun
  simp only [getSupportedOperations_eq]
  have hlist := hmapM (List.range info.getOperationsSize) fun i hi => List.mem_range.mp hi
  exact congrArg (fun p => exec (answer ng) p {}) hlist

theorem follows_getSupportedOperations (h : SignaturesChecked info device) :
    Follows Cmd.validation
      ((List.range info.getOperationsSize).mapM (verdictOf info device))
      (modelPoolFaults info device) :=
  Follows.mapM fun i hi => verdictOf_validates (h i (List.mem_range.mp hi))

theorem other_notMem_modelPoolFaults : .other ∉ modelPoolFaults info device := by
  intro hother
  obtain ⟨i, -, hmem⟩ := List.mem_flatMap.mp hother
  exact other_notMem_poolFaults _ _ hmem

/-- A model whose signatures have been checked gets a list of verdicts. -/
theorem supportedRun_runs_through (h : SignaturesChecked info device) (ng : Ngraph) :
    (∃ verdicts, (supportedRun info device ng).outcome = .ok verdicts) ∧
      (supportedRun info device ng).selected Cmd.validation = modelPoolFaults info device := by
  have hrun := validation_runs_through (follows_getSupportedOperations h)
    other_notMem_modelPoolFaults ng {}
  unfold supportedRun
  simp only [getSupportedOperations_eq]
  exact ⟨hrun.1, hrun.2.2⟩

/-- Every verdict is reached, and reaching it changes no table. -/
theorem verdictRun_runs_through (h : SignaturesChecked info device) (ng : Ngraph) {i : Nat}
    (hi : i < info.getOperationsSize) :
    (∃ supported, (verdictRun info device ng i).outcome = .ok supported) ∧
      (verdictRun info device ng i).state = {} := by
  have hrun := validation_runs_through (verdictOf_validates (h i hi))
    (other_notMem_poolFaults _ _) ng {}
  exact ⟨hrun.1, hrun.2.1⟩

/-- The verdict on the operation at an index. -/
def verdict (info : NnapiModelInfo) (device : IntelDeviceType) (ng : Ngraph) (i : Nat) : Bool :=
  (verdictRun info device ng i).outcome.toOption.getD false

theorem verdictRun_outcome (h : SignaturesChecked info device) (ng : Ngraph) {i : Nat}
    (hi : i < info.getOperationsSize) :
    (verdictRun info device ng i).outcome = .ok (verdict info device ng i) := by
  obtain ⟨supported, hsupported⟩ := (verdictRun_runs_through h ng hi).1
  rw [verdict, hsupported]
  rfl

theorem supportedRun_outcome (h : SignaturesChecked info device) (ng : Ngraph) :
    (supportedRun info device ng).outcome =
      .ok ((List.range info.getOperationsSize).map (verdict info device ng)) := by
  unfold supportedRun
  simp only [getSupportedOperations_eq]
  apply exec_mapM_of_unchanged
  intro i hi
  have hlt := List.mem_range.mp hi
  exact ⟨verdictRun_outcome h ng hlt, (verdictRun_runs_through h ng hlt).2⟩

/-- The loop of `validateOperations` accepts when every verdict does. -/
theorem validateNodes_outcome (h : SignaturesChecked info device) (ng : Ngraph) (l : List Nat)
    (hl : ∀ i ∈ l, i < info.getOperationsSize) :
    let statics := OperationsFactory.statics device info
    (exec (answer ng) (validateNodes statics (l.map (operationNode info statics))) {}).outcome =
      .ok (l.all (verdict info device ng)) := by
  induction l with
  | nil => rfl
  | cons i l ih =>
      have hi := hl i List.mem_cons_self
      have hrest := ih fun j hj => hl j (List.mem_cons_of_mem _ hj)
      have houtcome := verdictRun_outcome h ng hi
      have hstate := (verdictRun_runs_through h ng hi).2
      unfold verdictRun verdictOf at houtcome hstate
      simp only at houtcome hstate hrest ⊢
      rw [List.map_cons, validateNodes, exec_bind, houtcome]
      simp only [hstate, List.all_cons]
      cases verdict info device ng i with
      | true => simpa using hrest
      | false => rfl

theorem validateRun_outcome (h : SignaturesChecked info device) (ng : Ngraph) :
    (validateRun info device ng).outcome =
      .ok ((List.range info.getOperationsSize).all (verdict info device ng)) :=
  validateNodes_outcome h ng _ fun _ hi => List.mem_range.mp hi

/-! ## Mapped pools -/

/-- A mapped pool is never looked up past the end. -/
theorem poolFaults_mapped (hmodel : info.mModel.WellFormed)
    (hpools : info.mPoolInfos.length = info.mModel.pools.length) (operand : Nat) :
    info.poolFaults operand = [] := by
  unfold NnapiModelInfo.poolFaults
  refine if_neg ?_
  intro hboth
  rcases hboth with ⟨hlifetime, hindex⟩
  rcases Nat.lt_or_ge operand info.mModel.operands.length with hlt | hge
  · have hmem : info.getOperand operand ∈ info.mModel.operands := by
      unfold NnapiModelInfo.getOperand
      rw [List.getD_eq_getElem?_getD, List.getElem?_eq_getElem hlt, Option.getD_some]
      exact List.getElem_mem hlt
    have hwell := (hmodel.2.1 _ hmem).2.1 hlifetime
    omega
  · unfold NnapiModelInfo.getOperand at hlifetime
    rw [List.getD_eq_getElem?_getD, List.getElem?_eq_none hge] at hlifetime
    cases hlifetime

theorem operationPoolFaults_mapped (hmodel : info.mModel.WellFormed)
    (hpools : info.mPoolInfos.length = info.mModel.pools.length) (i : Nat) :
    (operationReads info device i).flatMap (Use.poolFaults (operationBase info device i)) = [] := by
  apply List.flatMap_eq_nil_iff.mpr
  intro u _
  cases u with
  | scalar T input | vector T input => exact poolFaults_mapped hmodel hpools _
  | _ => rfl

theorem modelPoolFaults_mapped (hmodel : info.mModel.WellFormed)
    (hpools : info.mPoolInfos.length = info.mModel.pools.length) :
    modelPoolFaults info device = [] :=
  List.flatMap_eq_nil_iff.mpr fun i _ => operationPoolFaults_mapped hmodel hpools i

theorem quiet_validateNodes (h : SignaturesChecked info device)
    (hmodel : info.mModel.WellFormed)
    (hpools : info.mPoolInfos.length = info.mModel.pools.length) (l : List Nat)
    (hl : ∀ i ∈ l, i < info.getOperationsSize) :
    let statics := OperationsFactory.statics device info
    Quiet Cmd.validation (validateNodes statics (l.map (operationNode info statics))) := by
  induction l with
  | nil => exact quiet_pure true
  | cons i l ih =>
      have hi := verdictOf_validates (h i (hl i List.mem_cons_self))
      unfold Validates at hi
      rw [operationPoolFaults_mapped hmodel hpools] at hi
      refine Quiet.bind hi fun supported => quiet_ite ?_ (quiet_pure false)
      exact ih fun j hj => hl j (List.mem_cons_of_mem _ hj)

theorem validateRun_selected (h : SignaturesChecked info device) (hmodel : info.mModel.WellFormed)
    (hpools : info.mPoolInfos.length = info.mModel.pools.length) (ng : Ngraph) :
    (validateRun info device ng).selected Cmd.validation = [] := by
  have hquiet := quiet_validateNodes h hmodel hpools (List.range info.getOperationsSize)
    fun i hi => List.mem_range.mp hi
  exact (validation_runs_through hquiet List.not_mem_nil ng {}).2.2

end NgraphNetworkCreator

open NgraphNetworkCreator

/-- What a client may expect of the two entry points: `getSupportedOperations`
lists the verdicts of the preparation, `validateOperations` accepts when all of
them do, and neither looks a pool up that is not there. -/
structure SameVerdicts (model : Model) (pools : List (List UInt8)) (device : IntelDeviceType)
    (ng : Ngraph) : Prop where
  verdicts : ∃ supported : List Bool,
    (supportedRun ⟨model, []⟩ device ng).outcome = .ok supported ∧
      (List.range model.operations.length).map
          (fun i => (verdictRun ⟨model, pools⟩ device ng i).outcome) = supported.map .ok ∧
        (validateRun ⟨model, pools⟩ device ng).outcome = .ok (supported.all id)
  inside : ∀ index,
    .poolFault index ∉ (supportedRun ⟨model, []⟩ device ng).selected Cmd.validation ∧
    .poolFault index ∉ (validateRun ⟨model, pools⟩ device ng).selected Cmd.validation

theorem sameVerdicts_iff_noPoolRead (model : Model) (pools : List (List UInt8))
    (device : IntelDeviceType) (hmodel : model.WellFormed)
    (hpools : pools.length = model.pools.length)
    (hsignatures : SignaturesChecked ⟨model, pools⟩ device) :
    (∀ ng, SameVerdicts model pools device ng) ↔
      ∀ i < model.operations.length, ∀ u ∈ operationReads ⟨model, pools⟩ device i,
        ¬ u.ReadsPool (operationBase ⟨model, pools⟩ device i) := by
  have hunmapped : SignaturesChecked ⟨model, []⟩ device := fun i hi =>
    signatureChecked_unmapped (hsignatures i hi)
  constructor
  · intro hsame i hi
    -- A read of a pool is made without the mapping as well, and leaves the vector.
    have hsamereads := @validateUses_unmapped (operationBase ⟨model, pools⟩ device i)
      (model.operations.getD i { type := .other 0, inputs := [], outputs := [] }).type
    refine hsamereads.readsPool_iff.mpr ?_
    intro u hu hreads
    obtain ⟨index, hfault⟩ := poolFaults_unmapped hreads
    apply ((hsame .permissive).inside index).1
    rw [(supportedRun_runs_through hunmapped .permissive).2]
    refine List.mem_flatMap.mpr ⟨i, List.mem_range.mpr hi, ?_⟩
    exact List.mem_flatMap.mpr ⟨u, hu, hfault⟩
  · intro hnone ng
    -- Without such a read the two validations are one program.
    have hsupported : supportedRun ⟨model, []⟩ device ng = supportedRun ⟨model, pools⟩ device ng :=
      @getSupportedOperations_unmapped ⟨model, pools⟩ device hnone ng
    refine ⟨⟨(List.range model.operations.length).map (verdict ⟨model, pools⟩ device ng),
      ?_, ?_, ?_⟩, fun index => ⟨?_, ?_⟩⟩
    · rw [hsupported]
      exact supportedRun_outcome hsignatures ng
    · rw [List.map_map]
      exact List.map_congr_left fun i hi =>
        verdictRun_outcome hsignatures ng (List.mem_range.mp hi)
    · rw [List.all_map]
      exact validateRun_outcome hsignatures ng
    · rw [hsupported, (supportedRun_runs_through hsignatures ng).2,
        modelPoolFaults_mapped hmodel hpools]
      exact List.not_mem_nil
    · rw [validateRun_selected hsignatures hmodel hpools]
      exact List.not_mem_nil

/-- A `CHANNEL_SHUFFLE` along the axis 1, with the axis kept as the lifetime
says. -/
def shuffleModel (lifetime : OperandLifeTime) : Model where
  operands :=
    [ { type := .tensorFloat32, dimensions := [1, 4], lifetime := .subgraphInput },
      { type := .int32, lifetime := .constantCopy, location := { length := 4 } },
      { type := .int32, lifetime, location := { length := 4 } },
      { type := .tensorFloat32, dimensions := [1, 4], lifetime := .subgraphOutput } ]
  operations := [{ type := .channelShuffle, inputs := [0, 1, 2], outputs := [3] }]
  inputIndexes := [0]
  outputIndexes := [3]
  operandValues := [1, 0, 0, 0]
  pools := [0]

/-- With the axis among the model's own values the two entry points agree. -/
theorem shuffleModel_sameVerdicts :
    SameVerdicts (shuffleModel .constantCopy) [[1, 0, 0, 0]] .cpu .permissive :=
  (sameVerdicts_iff_noPoolRead _ _ .cpu (by decide) rfl (by decide)).mpr (by decide) .permissive

/-- With the axis in a pool `getSupportedOperations` indexes the empty
vector. -/
theorem shuffleModel_leaves_pools :
    ¬ ∀ (model : Model) (pools : List (List UInt8)) (device : IntelDeviceType) (ng : Ngraph),
      model.WellFormed → pools.length = model.pools.length →
      SignaturesChecked ⟨model, pools⟩ device → SameVerdicts model pools device ng := by
  intro h
  have hsame := h (shuffleModel .constantReference) [[1, 0, 0, 0]] .cpu .permissive
    (by decide) rfl (by decide)
  apply (hsame.inside 0).1
  have hselected : (supportedRun ⟨shuffleModel .constantReference, []⟩ .cpu
      .permissive).selected Cmd.validation = [.poolFault 0] := rfl
  rw [hselected]
  exact List.mem_singleton.mpr rfl

end NnHal
