import Mathlib.Tactic.FinCases
import Mathlib.Tactic.IntervalCases
import NnHal.BoundNodes
import NnHal.LSTMSteps
import NnHal.SequenceRNN

/-!
# The variants of `LSTM.cpp`

Eleven inputs of the operation are optional, in five groups.  `createNode` derives its
flags from which of them are omitted and which of them have sizes.  An omitted operand
may have sizes, though, and where another input of its group is absent in another way,
the flags take the group to be there.
-/

namespace NnHal

open Command Tensors

section Offers

variable {R : Type} [Field R] [LinearOrder R]

/-- The input is there, as a constant or in the table, and its node holds the tensor. -/
structure OperationsBase.Offers (base : OperationsBase) (ng : Ngraph) (M : Meaning R)
    (nodes : NgraphNodes) (T : ElementType) (index : Nat) (x : Tensor R) : Prop where
  there : base.isInputConst index = true ∨ nodes.bound (base.inputIndex index) = true
  node : ∃ node, (exec (answer ng) (base.getInputNode index) nodes).outcome = .ok node ∧
    node.Realizes ng M T x

omit [LinearOrder R] in
theorem OperationsBase.Offers.gives {self : OperationsBase} {ng : Ngraph} {M : Meaning R}
    {nodes : NgraphNodes} {T : ElementType} {index : Nat} {x : Tensor R}
    (h : self.Offers ng M nodes T index x) :
    Gives (answer ng) nodes (self.getInputNode index) fun node => node.Realizes ng M T x := by
  rcases h.node with ⟨node, hrun, hnode⟩
  apply (gives_outcome hrun).mono
  intro r hr
  rw [hr]
  exact hnode

end Offers

section Lookups

variable {self : OperationsBase}

theorem lookup_of_access {c : Cmd} {i : Nat} (h : Cmd.access c = some (.output i)) :
    c = .getOperationOutput i := by
  cases c with
  | getOperationOutput j =>
      simp only [Cmd.access, Option.some.injEq, Access.output.injEq] at h
      rw [h]
  | fault f => cases f <;> simp [Cmd.access] at h
  | _ => simp [Cmd.access] at h

/-- `getInputNode` looks up the entry of an operand that is not constant. -/
theorem lookup_node {k i : Nat} {d : Bool} :
    .output i ∈ self.accesses (.node k d) ↔
      self.isInputConst k = false ∧ i = self.inputIndex k := by
  have hdequantized := dequantizedAccesses_elsewhere self (self.inputIndex k)
    (d && (self.sModelInfo.getOperandType (self.inputIndex k)).isQuantized)
  have hnone : ∀ as : List Access, (∀ a ∈ as, a.elsewhere = true) → .output i ∉ as := by
    intro as hall hmem
    cases hall _ hmem
  simp only [OperationsBase.accesses, OperationsBase.nodeAccesses, OperationsBase.isInputConst]
  cases hconst : self.sModelInfo.isOperandLifeTimeConst (self.inputIndex k)
  · simp only [Bool.false_eq_true, if_false, List.mem_cons, Access.output.injEq,
      hnone _ hdequantized, or_false, true_and]
  · simp only [if_true, reduceCtorEq, false_and, iff_false]
    cases (self.sModelInfo.getOperandType (self.inputIndex k)).constElement with
    | none => simp
    | some element =>
        apply hnone _
        intro a ha
        rcases List.mem_append.mp ha with hvector | hrest
        · exact readAccesses_elsewhere _ _ a hvector
        · exact hdequantized a hrest

end Lookups

namespace LSTM

/-! ## Presence -/

/-- An optional input is there: it has a value, and its first size is not zero. -/
def isPresent (self : OperationsBase) (index : Nat) : Bool :=
  !self.isOmittedInput index && isValidInputTensor self index

/-- The optional inputs are there, or not, as a variant of the cell has it. -/
structure Consistent (base : OperationsBase) (v : Variant) : Prop where
  inputs : base.inputsSize = 23 ∨ base.inputsSize = 27
  inputGate : ∀ i ∈ [1, 5, 12], isPresent base i = !v.coupled
  peephole : ∀ i ∈ [10, 11], isPresent base i = v.peephole
  inputPeephole : v.peephole = true → v.coupled = false → isPresent base 9 = true
  projection : isPresent base 16 = v.projected
  projectionBias : v.projected = true → isPresent base 17 = v.biased
  unnormalised : base.inputsSize = 23 → v.normalised = false
  norm : base.inputsSize = 27 → ∀ i ∈ [24, 25, 26], isPresent base i = v.normalised
  inputNorm : v.normalised = true → v.coupled = false → isPresent base 23 = true

/-- The peephole weights are omitted with sizes, that of the input gate is not omitted. -/
def mistakesPeephole (self : OperationsBase) (v : Variant) : Bool :=
  !v.peephole && allValid self [10, 11] && !self.isOmittedInput 9

/-- The same for the weights of the normalisation. -/
def mistakesNorm (self : OperationsBase) (v : Variant) : Bool :=
  self.inputsSize = 27 && !v.normalised && allValid self [24, 25, 26] &&
    !self.isOmittedInput 23 && (v.coupled || isValidInputTensor self 23)

/-- The bias of the projection is omitted with sizes. -/
def mistakesBias (self : OperationsBase) (v : Variant) : Bool :=
  v.projected && !v.biased && isValidInputTensor self 17

/-- An input that is not there is taken to be there. -/
def Mistakes (self : OperationsBase) (v : Variant) : Prop :=
  mistakesPeephole self v = true ∨ mistakesNorm self v = true ∨ mistakesBias self v = true

instance (self : OperationsBase) (v : Variant) : Decidable (Mistakes self v) :=
  inferInstanceAs (Decidable (_ ∨ _ ∨ _))

/-! ### The flags -/

section Flags

variable {self : OperationsBase} {v : Variant}

theorem coupledByWeights_eq (h : Consistent self v) : coupledByWeights self = v.coupled := by
  have h1 := h.inputGate 1 (by decide)
  have h5 := h.inputGate 5 (by decide)
  have h12 := h.inputGate 12 (by decide)
  simp only [isPresent] at h1 h5 h12
  simp only [coupledByWeights, allOmitted, allValid, List.all_cons, List.all_nil]
  grind

theorem coupledByPeephole_eq (h : Consistent self v) (hclear : mistakesPeephole self v = false) :
    coupledByPeephole self = false := by
  have h10 := h.peephole 10 (by decide)
  have h11 := h.peephole 11 (by decide)
  have h9 := h.inputPeephole
  simp only [isPresent] at h9 h10 h11
  simp only [mistakesPeephole, allValid, List.all_cons, List.all_nil] at hclear
  simp only [coupledByPeephole, coupledByWeights_eq h, allOmitted, allValid, List.all_cons,
    List.all_nil]
  grind

theorem isPeepholeUsed_eq (h : Consistent self v) (hclear : mistakesPeephole self v = false) :
    (!allOmitted self [9, 10, 11] &&
      allValid self (if v.coupled then [10, 11] else [9, 10, 11])) = v.peephole := by
  have h10 := h.peephole 10 (by decide)
  have h11 := h.peephole 11 (by decide)
  have h9 := h.inputPeephole
  simp only [isPresent] at h9 h10 h11
  simp only [mistakesPeephole, allValid, List.all_cons, List.all_nil] at hclear
  cases hcoupled : v.coupled
  all_goals
    simp only [allOmitted, allValid, List.all_cons, List.all_nil, Bool.false_eq_true, if_false,
      if_true]
    grind

theorem isLayerNormUsed_eq (h : Consistent self v) (hclear : mistakesNorm self v = false) :
    (decide (self.inputsSize = 27) && !allOmitted self [23, 24, 25, 26] &&
      allValid self (if v.coupled then [24, 25, 26] else [23, 24, 25, 26])) = v.normalised := by
  rcases h.inputs with hsize | hsize
  · rw [h.unnormalised hsize, hsize]
    rfl
  have h24 := h.norm hsize 24 (by decide)
  have h25 := h.norm hsize 25 (by decide)
  have h26 := h.norm hsize 26 (by decide)
  have h23 := h.inputNorm
  simp only [isPresent] at h23 h24 h25 h26
  simp only [mistakesNorm, hsize, allValid, List.all_cons, List.all_nil] at hclear
  cases hcoupled : v.coupled
  all_goals
    simp only [hsize, allOmitted, allValid, List.all_cons, List.all_nil, Bool.false_eq_true,
      if_false, if_true]
    grind

/-- Where no input is mistaken for one that is there, the flags are those of the variant. -/
theorem modes_eq (h : Consistent self v) (hpeephole : mistakesPeephole self v = false)
    (hnorm : mistakesNorm self v = false) :
    modes self =
      { isCIFGenabled := v.coupled, isCifgDimsEmpty := true, isPeepholeUsed := v.peephole
        isProjectionUsed := v.projected, isLayerNormUsed := v.normalised } := by
  have hprojection : (!self.isOmittedInput 16 && isValidInputTensor self 16) = v.projected :=
    h.projection
  unfold modes
  simp only [coupledByWeights_eq h, coupledByPeephole_eq h hpeephole, Bool.or_false,
    isPeepholeUsed_eq h hpeephole, isLayerNormUsed_eq h hnorm, hprojection, Bool.not_false]

/-- Omitted peephole weights are taken. -/
theorem takes_peephole (h : Consistent self v) (hmistakes : mistakesPeephole self v = true) :
    self.isOmittedInput 10 = true ∧ .node 10 ∈ uses self := by
  have h10 := h.peephole 10 (by decide)
  simp only [isPresent] at h10
  simp only [mistakesPeephole, allValid, List.all_cons, List.all_nil] at hmistakes
  have hused : (modes self).isPeepholeUsed = true := by
    unfold modes
    cases hcoupled : (coupledByWeights self || coupledByPeephole self)
    all_goals
      simp only [coupledByPeephole, allOmitted, allValid, List.all_cons, List.all_nil] at hcoupled
      simp only [allOmitted, allValid, List.all_cons, List.all_nil, Bool.false_eq_true, if_false,
        if_true]
      grind
  refine ⟨by grind, ?_⟩
  simp [uses, peepholeUses, hused]

/-- Omitted weights of the normalisation are taken. -/
theorem takes_norm (h : Consistent self v) (hclear : mistakesPeephole self v = false)
    (hmistakes : mistakesNorm self v = true) :
    self.isOmittedInput 24 = true ∧ .node 24 ∈ uses self := by
  have hcoupled : (coupledByWeights self || coupledByPeephole self) = v.coupled := by
    rw [coupledByWeights_eq h, coupledByPeephole_eq h hclear, Bool.or_false]
  have hsize : self.inputsSize = 27 := by
    simp only [mistakesNorm, Bool.and_eq_true, decide_eq_true_eq] at hmistakes
    exact hmistakes.1.1.1.1
  have h24 := h.norm hsize 24 (by decide)
  simp only [isPresent] at h24
  simp only [mistakesNorm, hsize, allValid, List.all_cons, List.all_nil] at hmistakes
  have hused : (modes self).isLayerNormUsed = true := by
    unfold modes
    simp only [hcoupled, hsize]
    cases hvariant : v.coupled
    all_goals
      simp only [allOmitted, allValid, List.all_cons, List.all_nil, Bool.false_eq_true, if_false,
        if_true]
      grind
  refine ⟨by grind, ?_⟩
  simp [uses, layerNormUses, hused]

/-- The omitted bias of the projection is taken. -/
theorem takes_bias (h : Consistent self v) (hmistakes : mistakesBias self v = true) :
    self.isOmittedInput 17 = true ∧ .node 17 ∈ uses self := by
  simp only [mistakesBias, Bool.and_eq_true, Bool.not_eq_true'] at hmistakes
  rcases hmistakes with ⟨⟨hprojected, hunbiased⟩, hvalid⟩
  have h17 := h.projectionBias hprojected
  simp only [isPresent, hvalid, hunbiased] at h17
  have hused : (modes self).isProjectionUsed = true := h.projection.trans hprojected
  refine ⟨by simpa using h17, ?_⟩
  simp [uses, projectionUses, hused, hvalid]

/-- A mistake takes an omitted input. -/
theorem takes_omitted (h : Consistent self v) (hmistakes : Mistakes self v) :
    ∃ i, self.isOmittedInput i = true ∧ .node i ∈ uses self := by
  by_cases hpeephole : mistakesPeephole self v = true
  · exact ⟨10, takes_peephole h hpeephole⟩
  · have hclear : mistakesPeephole self v = false := Bool.eq_false_of_not_eq_true hpeephole
    rcases hmistakes with hfirst | hnorm | hbias
    · exact absurd hfirst hpeephole
    · exact ⟨24, takes_norm h hclear hnorm⟩
    · exact ⟨17, takes_bias h hbias⟩

end Flags

/-! ## The inputs -/

section Inputs

variable {R : Type} [Field R] [LinearOrder R]

/-- The inputs of a gate, the first, second, third or fourth of their kind. -/
structure OffersGate (ng : Ngraph) (M : Meaning R) (nodes : NgraphNodes) (base : OperationsBase)
    (p : MemoryCell R) (gate : MemoryGate R p.inputSize p.units p.outputSize) (k : Nat) :
    Prop where
  weights : base.Offers ng M nodes p.elementType (1 + k) gate.weights
  recurrentWeights : base.Offers ng M nodes p.elementType (5 + k) gate.recurrentWeights
  bias : base.Offers ng M nodes p.elementType (12 + k) gate.bias

/-- The inputs of the operation are those of a cell, an input, an output and a state. -/
structure Inputs (ng : Ngraph) (M : Meaning R) (nodes : NgraphNodes) (base : OperationsBase)
    (p : MemoryCell R) (x h s : Tensor R) : Prop where
  consistent : Consistent base p.variant
  input : base.Offers ng M nodes p.elementType 0 x
  hiddenState : base.Offers ng M nodes p.elementType 18 h
  cellState : base.Offers ng M nodes p.elementType 19 s
  inputGate : p.variant.coupled = false → OffersGate ng M nodes base p p.input 0
  forgetGate : OffersGate ng M nodes base p p.forget 1
  cellGate : OffersGate ng M nodes base p p.cell 2
  outputGate : OffersGate ng M nodes base p p.output 3
  inputPeephole : p.variant.peephole = true → p.variant.coupled = false →
    base.Offers ng M nodes p.elementType 9 p.input.peephole
  forgetPeephole : p.variant.peephole = true →
    base.Offers ng M nodes p.elementType 10 p.forget.peephole
  outputPeephole : p.variant.peephole = true →
    base.Offers ng M nodes p.elementType 11 p.output.peephole
  inputNorm : p.variant.normalised = true → p.variant.coupled = false →
    base.Offers ng M nodes p.elementType 23 p.input.norm
  forgetNorm : p.variant.normalised = true →
    base.Offers ng M nodes p.elementType 24 p.forget.norm
  cellNorm : p.variant.normalised = true → base.Offers ng M nodes p.elementType 25 p.cell.norm
  outputNorm : p.variant.normalised = true →
    base.Offers ng M nodes p.elementType 26 p.output.norm
  projection : p.variant.projected = true →
    base.Offers ng M nodes p.elementType 16 p.projectionWeights
  projectionBias : p.variant.projected = true → p.variant.biased = true →
    base.Offers ng M nodes p.elementType 17 p.projectionBias
  activationFn : ∃ code, base.Passes ng nodes .uint32 20 code ∧ toInt32 code = p.activationFn
  cellClip : ∃ word, base.Passes ng nodes (clippingType base) 21 word ∧
    IsBound (clippingType base) word p.cellClip
  projectionClip : p.variant.projected = true →
    ∃ word, base.Passes ng nodes (clippingType base) 22 word ∧
      IsBound (clippingType base) word p.projectionClip
  /-- an omitted operand is bound to no node -/
  omitted : ∀ i, base.isOmittedInput i = true → nodes.bound (base.inputIndex i) = false
  hiddenDimensions : base.getInputOperandDimensions 18 = [p.batch, p.outputSize]
  stateDimensions : base.getInputOperandDimensions 19 = [p.batch, p.units]
  shape_input : x.shape = [p.batch, p.inputSize]
  shape_hidden : h.shape = [p.batch, p.outputSize]
  shape_state : s.shape = [p.batch, p.units]
  documented : p.activationFn ∈ ([0, 1, 3, 4, 6] : List Int)
  /-- no operand is two outputs -/
  distinct : ∀ i j, i < j → j < 4 → base.outputIndex i ≠ base.outputIndex j

variable {ng : Ngraph} {M : Meaning R} {nodes : NgraphNodes} {self : OperationsBase}
variable {p : MemoryCell R} {x h s : Tensor R} {m : Modes} {σ τ root : R → R}

/-! ### Fetching the nodes -/

omit [LinearOrder R] in
theorem gives_inputGateNode {coupled : Bool} (hcoupled : m.isCIFGenabled = coupled)
    (hdims : m.isCifgDimsEmpty = true) {T : ElementType} {index : Nat} {y : Tensor R}
    (hoffers : coupled = false → self.Offers ng M nodes T index y) :
    Gives (answer ng) nodes (inputGateNode self m index) fun node =>
      coupled = false → ∃ W, node = some W ∧ W.Realizes ng M T y := by
  unfold inputGateNode
  rw [hcoupled, hdims]
  refine gives_ite (fun hon => ?_) fun hoff => ?_
  · exact gives_pure fun hfalse => absurd (hon.symm.trans hfalse) nofun
  · have hfalse : coupled = false := Bool.eq_false_of_not_eq_true hoff
    exact (hoffers hfalse).gives.bind fun W hW => gives_pure fun _ => ⟨W, rfl, hW⟩

/-- The nodes of one kind of parameters hold them. -/
structure FetchedGates (ng : Ngraph) (M : Meaning R) (T : ElementType) (coupled : Bool)
    (input forget cell output : Tensor R) (g : GateNodes) : Prop where
  input : coupled = false → ∃ W, g.input = some W ∧ W.Realizes ng M T input
  forget : g.forget.Realizes ng M T forget
  cell : g.cell.Realizes ng M T cell
  output : g.output.Realizes ng M T output

omit [LinearOrder R] in
theorem gives_gateNodes {coupled : Bool} (hcoupled : m.isCIFGenabled = coupled)
    (hdims : m.isCifgDimsEmpty = true) {T : ElementType} {index : Nat}
    {input forget cell output : Tensor R}
    (hinput : coupled = false → self.Offers ng M nodes T index input)
    (hforget : self.Offers ng M nodes T (index + 1) forget)
    (hcell : self.Offers ng M nodes T (index + 2) cell)
    (houtput : self.Offers ng M nodes T (index + 3) output) :
    Gives (answer ng) nodes (gateNodes self m index)
      (FetchedGates ng M T coupled input forget cell output) := by
  unfold gateNodes
  apply (gives_inputGateNode hcoupled hdims hinput).bind
  intro input' hinput'
  apply hforget.gives.bind
  intro forget' hforget'
  apply hcell.gives.bind
  intro cell' hcell'
  apply houtput.gives.bind
  intro output' houtput'
  exact gives_pure ⟨hinput', hforget', hcell', houtput'⟩

/-- The peephole weights, zeros where there are none. -/
theorem Inputs.gives_peepholeNodes (hM : M.ComputesCells σ τ root) (hng : ng.ChecksCells)
    (hin : Inputs ng M nodes self p x h s) (hcoupled : m.isCIFGenabled = p.variant.coupled)
    (hused : m.isPeepholeUsed = p.variant.peephole) :
    Gives (answer ng) nodes (peepholeNodes self m p.elementType p.units) fun w =>
      (p.variant.coupled = false →
        w.cell2input_weights.Realizes ng M p.elementType (p.peepholeWeights p.input)) ∧
      w.cell2forget_weights.Realizes ng M p.elementType (p.peepholeWeights p.forget) ∧
      w.cell2output_weights.Realizes ng M p.elementType (p.peepholeWeights p.output) := by
  have hzero : ((Scalar.int 0).value : R) = 0 := by simp [Scalar.value]
  have hzeros : Gives (answer ng) nodes (createConstNode p.elementType [p.units] [.int 0])
      fun node => node.Realizes ng M p.elementType (.ofFn [p.units] fun _ => 0) :=
    gives_number hM hng p.isFloat [p.units] hzero
  unfold peepholeNodes MemoryCell.peepholeWeights
  rw [hused, hcoupled]
  refine gives_ite (fun hon => ?_) fun hoff => ?_
  · simp only [hon, if_true]
    have hinput : Gives (answer ng) nodes
        (if p.variant.coupled then createConstNode p.elementType [p.units] [.int 0]
          else self.getInputNode 9) fun w => p.variant.coupled = false →
        w.Realizes ng M p.elementType p.input.peephole := by
      refine gives_ite (fun hon => ?_) fun hoff => ?_
      · have howned : p.variant.coupled ≠ false := by
          rw [hon]
          decide
        exact hzeros.mono fun _ _ hfalse => absurd hfalse howned
      · have hfalse := Bool.eq_false_of_not_eq_true hoff
        exact (hin.inputPeephole hon hfalse).gives.mono fun _ hw _ => hw
    apply hinput.bind
    intro w hw
    apply (hin.forgetPeephole hon).gives.bind
    intro w' hw'
    apply (hin.outputPeephole hon).gives.bind
    intro w'' hw''
    exact gives_pure ⟨hw, hw', hw''⟩
  · simp only [hoff]
    apply hzeros.bind
    intro w hw
    apply hzeros.bind
    intro w' hw'
    apply hzeros.bind
    intro w'' hw''
    exact gives_pure ⟨fun _ => hw, hw', hw''⟩

/-- The projection, where there is one. -/
theorem Inputs.gives_projectionNodes (hM : M.ComputesCells σ τ root) (hng : ng.ChecksCells)
    (hin : Inputs ng M nodes self p x h s) (hused : m.isProjectionUsed = p.variant.projected)
    (hclear : mistakesBias self p.variant = false) :
    Gives (answer ng) nodes (projectionNodes self m p.elementType p.outputSize) fun projection =>
      (p.variant.projected = false → projection = none) ∧
      (p.variant.projected = true → ∃ W bias, projection = some (W, bias) ∧
        W.Realizes ng M p.elementType p.projectionWeights ∧
        bias.Realizes ng M p.elementType p.addedBias) := by
  have hzero : ((Scalar.int 0).value : R) = 0 := by simp [Scalar.value]
  unfold projectionNodes
  rw [hused]
  refine gives_ite (fun hon => ?_) fun hoff => ?_
  · have hpresent := hin.consistent.projectionBias hon
    have hvalid : isValidInputTensor self 17 = p.variant.biased := by
      simp only [mistakesBias, hon] at hclear
      simp only [isPresent] at hpresent
      grind
    have hbias : Gives (answer ng) nodes
        (if isValidInputTensor self 17 then self.getInputNode 17
          else createConstNode p.elementType [p.outputSize] [.int 0]) fun bias =>
        bias.Realizes ng M p.elementType p.addedBias := by
      unfold MemoryCell.addedBias
      rw [hvalid]
      refine gives_ite (fun hbiased => ?_) fun hunbiased => ?_
      · rw [if_pos hbiased]
        exact (hin.projectionBias hon hbiased).gives
      · rw [if_neg hunbiased]
        exact gives_number hM hng p.isFloat [p.outputSize] hzero
    apply (hin.projection hon).gives.bind
    intro W hW
    apply hbias.bind
    intro bias hbias
    have hprojected : p.variant.projected ≠ false := by
      rw [hon]
      decide
    exact gives_pure ⟨fun hfalse => absurd hfalse hprojected, fun _ => ⟨W, bias, rfl, hW, hbias⟩⟩
  · exact gives_pure ⟨fun _ => rfl, fun htrue => absurd htrue hoff⟩

/-- The bound of the projection, where there is one. -/
theorem Inputs.gives_projectionClipping (hin : Inputs ng M nodes self p x h s)
    (hused : m.isProjectionUsed = p.variant.projected) :
    Gives (answer ng) nodes (projectionClipping self m) fun word => p.variant.projected = true →
      IsBound (clippingType self) word p.projectionClip := by
  unfold projectionClipping
  rw [hused]
  refine gives_ite (fun hon => ?_) fun hoff => gives_pure fun htrue => absurd htrue hoff
  obtain ⟨word, hpasses, hbound⟩ := hin.projectionClip hon
  apply (gives_outcome hpasses).mono
  intro r hr _
  rw [hr]
  exact hbound

/-- The weights of the normalisation, where there is one. -/
theorem Inputs.gives_layerNormNodes (hin : Inputs ng M nodes self p x h s)
    (hcoupled : m.isCIFGenabled = p.variant.coupled)
    (hused : m.isLayerNormUsed = p.variant.normalised) :
    Gives (answer ng) nodes (layerNormNodes self m) fun norm => p.variant.normalised = true →
      ∃ weights : GateNodes, norm = some weights ∧
        weights.forget.Realizes ng M p.elementType p.forget.norm ∧
        weights.cell.Realizes ng M p.elementType p.cell.norm ∧
        weights.output.Realizes ng M p.elementType p.output.norm ∧
        (p.variant.coupled = false →
          ∃ node, weights.input = some node ∧ node.Realizes ng M p.elementType p.input.norm) := by
  unfold layerNormNodes
  rw [hused, hcoupled]
  refine gives_ite (fun hon => ?_) fun hoff => gives_pure fun htrue => absurd htrue hoff
  have hinput : Gives (answer ng) nodes
      (if p.variant.coupled then pure none else do
        let node ← self.getInputNode 23
        pure (some node)) fun input : NodePtr => p.variant.coupled = false →
      ∃ node, input = some node ∧ node.Realizes ng M p.elementType p.input.norm := by
    refine gives_ite (fun hon => ?_) fun hoff => ?_
    · exact gives_pure fun hfalse => absurd (hon.symm.trans hfalse) nofun
    · have hfalse := Bool.eq_false_of_not_eq_true hoff
      exact (hin.inputNorm hon hfalse).gives.bind fun node hnode =>
        gives_pure fun _ => ⟨node, rfl, hnode⟩
  apply hinput.bind
  intro input hinput
  apply (hin.forgetNorm hon).gives.bind
  intro forget hforget
  apply (hin.cellNorm hon).gives.bind
  intro cell hcell
  apply (hin.outputNorm hon).gives.bind
  intro output houtput
  exact gives_pure fun _ => ⟨_, rfl, hforget, hcell, houtput, hinput⟩

/-! ### The whole operation -/

/-- What follows the fetching. -/
def connected (self : OperationsBase) (c : Cell) : Gen Unit := do
  let (scratchBuffer, H, C) ← cellOutputs c
  self.setOperationOutput (self.outputIndex 0) (some scratchBuffer)
  self.setOperationOutput (self.outputIndex 1) (some H)
  self.setOperationOutput (self.outputIndex 2) (some C)
  self.setOperationOutput (self.outputIndex 3) (some H)

/-- Where no input is mistaken for one that is there, a run fetches the nodes of the cell. -/
theorem Inputs.run (hM : M.ComputesCells σ τ root) (hng : ng.ChecksCells)
    (hin : Inputs ng M nodes self p x h s) (hclear : ¬ Mistakes self p.variant)
    {P : Except Stop Unit → NgraphNodes → Prop}
    (hrest : ∀ c : Cell, c.Given ng M p x h s →
      P (exec (answer ng) (connected self c) nodes).outcome
        (exec (answer ng) (connected self c) nodes).state) :
    P (exec (answer ng) (createNode self) nodes).outcome
      (exec (answer ng) (createNode self) nodes).state := by
  simp only [Mistakes, not_or, Bool.not_eq_true] at hclear
  rcases hclear with ⟨hpeephole, hnorm, hbias⟩
  have hmodes := modes_eq hin.consistent hpeephole hnorm
  have hunits : Gives (answer ng) nodes (dimAt (self.getInputOperandDimensions 19) 1)
      (· = p.units) := by
    rw [hin.stateDimensions]
    exact gives_pure rfl
  have hsize : Gives (answer ng) nodes (dimAt (self.getInputOperandDimensions 18) 1)
      (· = p.outputSize) := by
    rw [hin.hiddenDimensions]
    exact gives_pure rfl
  rcases hin.activationFn with ⟨code, hcode, hactivation⟩
  rcases hin.cellClip with ⟨word, hword, hbound⟩
  unfold createNode
  rw [hmodes]
  refine hunits.run (P := P) ?_
  intro _ heq
  subst heq
  refine hsize.run (P := P) ?_
  intro _ heq
  subst heq
  apply hin.input.gives.run (P := P)
  intro inputNode hinput
  have htype : Gives (answer ng) nodes (issue (.getElementType inputNode)) (· = p.elementType) :=
    gives_perform rfl hinput.type
  refine htype.run (P := P) ?_
  intro _ heq
  subst heq
  refine (gives_gateNodes rfl rfl (fun hown => (hin.inputGate hown).weights)
    hin.forgetGate.weights hin.cellGate.weights hin.outputGate.weights).run (P := P)
    fun weights hweights => ?_
  refine (gives_gateNodes rfl rfl (fun hown => (hin.inputGate hown).recurrentWeights)
    hin.forgetGate.recurrentWeights hin.cellGate.recurrentWeights
    hin.outputGate.recurrentWeights).run (P := P) fun recurrent hrecurrent => ?_
  apply (hin.gives_peepholeNodes hM hng rfl rfl).run (P := P)
  intro peephole hpeepholes
  refine (gives_gateNodes rfl rfl (fun hown => (hin.inputGate hown).bias)
    hin.forgetGate.bias hin.cellGate.bias hin.outputGate.bias).run (P := P) fun biases hbiases => ?_
  refine (hin.gives_projectionNodes hM hng rfl hbias).run (P := P)
    fun projection hprojection => ?_
  apply hin.hiddenState.gives.run (P := P)
  intro hidden hhidden
  apply hin.cellState.gives.run (P := P)
  intro state hstate
  refine (gives_outcome hcode).run (P := P) ?_
  intro _ heq
  subst heq
  refine (gives_outcome hword).run (P := P) ?_
  intro _ heq
  subst heq
  apply (hin.gives_projectionClipping rfl).run (P := P)
  intro clipping hclipping
  apply (hin.gives_layerNormNodes rfl rfl).run (P := P)
  intro norm hnorms
  apply hrest
  exact
    { coupled := rfl
      normalised := rfl
      elementType := rfl
      inputNode := hinput
      hiddenState := hhidden
      cellState := hstate
      input := by
        intro hown
        obtain ⟨W, hW, hweight⟩ := hweights.input hown
        obtain ⟨W', hW', hweight'⟩ := hrecurrent.input hown
        obtain ⟨b, hb, hbias⟩ := hbiases.input hown
        exact ⟨W, W', b, hW, hW', hb, hweight, hweight', hbias⟩
      forget := ⟨hweights.forget, hrecurrent.forget, hbiases.forget⟩
      cell := ⟨hweights.cell, hrecurrent.cell, hbiases.cell⟩
      output := ⟨hweights.output, hrecurrent.output, hbiases.output⟩
      inputPeephole := hpeepholes.1
      forgetPeephole := hpeepholes.2.1
      outputPeephole := hpeepholes.2.2
      norm := hnorms
      unprojected := hprojection.1
      projection := hprojection.2
      activationFn := hactivation
      cellClip := hbound
      projectionClip := hclipping
      shape_input := hin.shape_input
      shape_hidden := hin.shape_hidden
      shape_state := hin.shape_state }

/-- The outputs are bound to the output and the state of a cell. -/
structure Binds (M : Meaning R) (base : OperationsBase) (y z : Tensor R) (nodes : NgraphNodes) :
    Prop where
  output : ∃ H, nodes.mOutputAtOperandIndex (base.outputIndex 1) = some (H, 0) ∧
    H.denote M 0 = y
  state : ∃ C, nodes.mOutputAtOperandIndex (base.outputIndex 2) = some (C, 0) ∧
    C.denote M 0 = z
  again : ∃ H, nodes.mOutputAtOperandIndex (base.outputIndex 3) = some (H, 0) ∧
    H.denote M 0 = y

theorem leaves_connected [IsStrictOrderedRing R] (hM : M.ComputesCells σ τ root)
    (hng : ng.ChecksCells) (hf32 : p.variant.normalised = true → p.elementType = .f32)
    (hdistinct : ∀ i j, i < j → j < 4 → self.outputIndex i ≠ self.outputIndex j) {c : Cell}
    (hc : c.Given ng M p x h s) :
    Leaves (answer ng) nodes (connected self c) fun _ =>
      Binds M self (p.nextOutput (builtFunctions σ τ root p) x h s)
        (p.nextState (builtFunctions σ τ root p) x h s) := by
  unfold connected
  apply (gives_cellOutputs hM hng hf32 hc).bind_leaves
  intro r hr
  rcases r with ⟨scratchBuffer, H, C⟩
  rcases hr with ⟨hH, hC⟩
  refine (leaves_setOperationOutput _ _).bind fun _ s₀ hs₀ => ?_
  apply (leaves_setOperationOutput _ _).bind
  intro _ s₁ hs₁
  apply (leaves_setOperationOutput _ _).bind
  intro _ s₂ hs₂
  apply (leaves_setOperationOutput _ _).mono
  intro _ s₃ hs₃
  have h12 := hdistinct 1 2 (by decide) (by decide)
  have h13 := hdistinct 1 3 (by decide) (by decide)
  have h23 := hdistinct 2 3 (by decide) (by decide)
  refine ⟨⟨H, ?_, hH.tensor⟩, ⟨C, ?_, hC.tensor⟩, ⟨H, ?_, hH.tensor⟩⟩
  · rw [hs₃, Function.update_of_ne h13, hs₂, Function.update_of_ne h12, hs₁, Function.update_self]
    rfl
  · rw [hs₃, Function.update_of_ne h23, hs₂, Function.update_self]
    rfl
  · rw [hs₃, Function.update_self]
    rfl

/-! ### The entries a run looks up -/

/-- Every entry the run looks up held a node when it began. -/
def FindsNodes (nodes : NgraphNodes) (run : Ran NgraphNodes Cmd Stop Unit) : Prop :=
  ∀ sc ∈ run.trace, ∀ i, sc.2 = .getOperationOutput i → nodes.bound i = true

/-- Every entry a use looks up holds a node. -/
def Finds (self : OperationsBase) (nodes : NgraphNodes) (u : Use) : Prop :=
  ∀ i, .output i ∈ self.accesses u → nodes.bound i = true

/-- A run that returns looks up what its uses do. -/
theorem findsNodes_iff (hreturned : (exec (answer ng) (createNode self) nodes).outcome = .ok ()) :
    FindsNodes nodes (exec (answer ng) (createNode self) nodes) ↔
      ∀ u ∈ uses self, Finds self nodes u := by
  have hselected : Ran.selected Cmd.access (exec (answer ng) (createNode self) nodes) =
      (uses self).flatMap self.accesses :=
    createNode_uses.trace_eq hreturned
  constructor
  · intro hfinds u hu i hi
    have hmem : .output i ∈ (uses self).flatMap self.accesses := List.mem_flatMap.mpr ⟨u, hu, hi⟩
    rw [← hselected] at hmem
    obtain ⟨sc, hsc, haccess⟩ := List.mem_filterMap.mp hmem
    exact hfinds sc hsc i (lookup_of_access haccess)
  · intro hall sc hsc i hi
    have haccess : Cmd.access sc.2 = some (.output i) := by
      rw [hi]
      rfl
    have hmem : .output i ∈ (exec (answer ng) (createNode self) nodes).selected Cmd.access :=
      List.mem_filterMap.mpr ⟨sc, hsc, haccess⟩
    rw [hselected] at hmem
    obtain ⟨u, hu, hu'⟩ := List.mem_flatMap.mp hmem
    exact hall u hu i hu'

omit [LinearOrder R] in
theorem finds_offered {T : ElementType} {k : Nat} {d : Bool} {y : Tensor R}
    (h : self.Offers ng M nodes T k y) : Finds self nodes (.node k d) := by
  intro i hi
  obtain ⟨hconst, rfl⟩ := lookup_node.mp hi
  rcases h.there with htrue | hbound
  · rw [hconst] at htrue
    cases htrue
  · exact hbound

theorem finds_scalar {T : CType} {k : Nat} : Finds self nodes (.scalar T k) := by
  intro i hi
  cases readAccesses_elsewhere _ _ _ hi

omit [LinearOrder R] in
theorem finds_gateUses {T : ElementType} {index : Nat} {input forget cell output : Tensor R}
    (hdims : m.isCifgDimsEmpty = true)
    (hinput : m.isCIFGenabled = false → self.Offers ng M nodes T index input)
    (hforget : self.Offers ng M nodes T (index + 1) forget)
    (hcell : self.Offers ng M nodes T (index + 2) cell)
    (houtput : self.Offers ng M nodes T (index + 3) output) :
    ∀ u ∈ gateUses m index, Finds self nodes u := by
  have hfirst : ∀ u ∈ inputGateUses m index, Finds self nodes u := by
    unfold inputGateUses
    cases hcoupled : m.isCIFGenabled
    · simpa using finds_offered (hinput hcoupled)
    · simp [hdims]
  simp only [gateUses, List.forall_mem_append, List.forall_mem_cons]
  exact ⟨hfirst, finds_offered hforget, finds_offered hcell, finds_offered houtput, by simp⟩

omit [LinearOrder R] in
/-- An input the variant may leave out, in front of inputs that are used. -/
theorem finds_behind {T : ElementType} {b : Bool} {k : Nat} {d : Bool} {y : Tensor R}
    {us : List Use} (hfirst : b = false → self.Offers ng M nodes T k y)
    (hrest : ∀ u ∈ us, Finds self nodes u) :
    ∀ u ∈ (if b then [] else [.node k d]) ++ us, Finds self nodes u := by
  cases b
  · intro u hu
    rcases List.mem_cons.mp hu with rfl | hmem
    · exact finds_offered (hfirst rfl)
    · exact hrest u hmem
  · exact hrest

/-- Every input that is used is there. -/
theorem Inputs.finds (hin : Inputs ng M nodes self p x h s) (hclear : ¬ Mistakes self p.variant) :
    ∀ u ∈ uses self, Finds self nodes u := by
  simp only [Mistakes, not_or, Bool.not_eq_true] at hclear
  rcases hclear with ⟨hpeephole, hnorm, hbias⟩
  simp only [uses, modes_eq hin.consistent hpeephole hnorm, List.forall_mem_cons,
    List.forall_mem_append]
  refine ⟨finds_offered hin.input, ?_, ?_, ?_, ?_, ?_, finds_offered hin.hiddenState,
    finds_offered hin.cellState, finds_scalar, finds_scalar, ?_, ?_, ?_⟩
  · exact finds_gateUses rfl (fun hown => (hin.inputGate hown).weights) hin.forgetGate.weights
      hin.cellGate.weights hin.outputGate.weights
  · exact finds_gateUses rfl (fun hown => (hin.inputGate hown).recurrentWeights)
      hin.forgetGate.recurrentWeights hin.cellGate.recurrentWeights
      hin.outputGate.recurrentWeights
  · unfold peepholeUses
    split
    · next hused =>
      refine finds_behind (hin.inputPeephole hused) ?_
      simp only [List.forall_mem_cons]
      exact ⟨finds_offered (hin.forgetPeephole hused), finds_offered (hin.outputPeephole hused),
        by simp⟩
    · simp
  · exact finds_gateUses rfl (fun hown => (hin.inputGate hown).bias) hin.forgetGate.bias
      hin.cellGate.bias hin.outputGate.bias
  · unfold projectionUses
    split
    · next hused =>
      rw [List.forall_mem_cons]
      refine ⟨finds_offered (hin.projection hused), ?_⟩
      split
      · next hvalid =>
        have hbiased : p.variant.biased = true := by
          simp only [mistakesBias, hvalid] at hbias
          have hneeds : p.variant.projected = true → p.variant.biased = true := by simpa using hbias
          exact hneeds hused
        simpa using finds_offered (hin.projectionBias hused hbiased)
      · simp
    · simp
  · unfold projectionClippingUses
    split
    · simpa using finds_scalar
    · simp
  · unfold layerNormUses
    split
    · next hused =>
      refine finds_behind (hin.inputNorm hused) ?_
      simp only [List.forall_mem_cons]
      exact ⟨finds_offered (hin.forgetNorm hused), finds_offered (hin.cellNorm hused),
        finds_offered (hin.outputNorm hused), by simp⟩
    · simp
  · intro u hu i hi
    simp only [outputUses, List.mem_cons, List.not_mem_nil, or_false] at hu
    rcases hu with rfl | rfl | rfl | rfl
    all_goals
      rw [OperationsBase.accesses, List.mem_singleton] at hi
      cases hi

/-! ## When the operation is the cell -/

/-- The functions the activation code stands for. -/
def documentedFunctions (σ τ root : R → R) (p : MemoryCell R) : CellFunctions R where
  sigmoid := σ
  activation := MemoryCell.activation σ τ p.activationFn
  root := root

/-- The graph is well formed, and its outputs are those of the cell. -/
def Correct (ng : Ngraph) (M : Meaning R) (nodes : NgraphNodes) (self : OperationsBase)
    (p : MemoryCell R) (F : CellFunctions R) (x h s : Tensor R) : Prop :=
  FindsNodes nodes (exec (answer ng) (createNode self) nodes) ∧
    Leaves (answer ng) nodes (createNode self) fun _ =>
      Binds M self (p.nextOutput F x h s) (p.nextState F x h s)

/-- An omitted input that is taken is not there. -/
theorem not_correct_of_mistakes (hin : Inputs ng M nodes self p x h s)
    (hmistakes : Mistakes self p.variant) {F : CellFunctions R} :
    ¬ Correct ng M nodes self p F x h s := by
  intro hboth
  rcases hboth with ⟨hfinds, _, hreturned, -⟩
  obtain ⟨k, homitted, hused⟩ := takes_omitted hin.consistent hmistakes
  have hconst : self.isInputConst k = false := by
    have hlifetime : self.sModelInfo.getOperandLifetime (self.inputIndex k) = .noValue := by
      simpa [OperationsBase.isOmittedInput, NnapiModelInfo.isOmittedInput,
        OperationsBase.inputIndex] using homitted
    simp [OperationsBase.isInputConst, NnapiModelInfo.isOperandLifeTimeConst, hlifetime,
      OperandLifeTime.isConst]
  have hbound := (findsNodes_iff hreturned).mp hfinds _ hused _ (lookup_node.mpr ⟨hconst, rfl⟩)
  rw [hin.omitted k homitted] at hbound
  cases hbound

variable [IsStrictOrderedRing R]

/-- Where no input is mistaken and ngraph accepts the normalisation, the outputs are those
of the cell with the functions the nodes compute. -/
theorem correct_built (hM : M.ComputesCells σ τ root) (hng : ng.ChecksCells)
    (hin : Inputs ng M nodes self p x h s) (hclear : ¬ Mistakes self p.variant)
    (hf32 : p.variant.normalised = true → p.elementType = .f32) :
    Correct ng M nodes self p (builtFunctions σ τ root p) x h s := by
  have hleaves : Leaves (answer ng) nodes (createNode self) fun _ =>
      Binds M self (p.nextOutput (builtFunctions σ τ root p) x h s)
        (p.nextState (builtFunctions σ τ root p) x h s) := by
    refine hin.run hM hng hclear (P := fun outcome s' => ∃ a, outcome = .ok a ∧
      Binds M self (p.nextOutput (builtFunctions σ τ root p) x h s)
        (p.nextState (builtFunctions σ τ root p) x h s) s') ?_
    exact fun c hc => leaves_connected hM hng hf32 hin.distinct hc
  rcases hleaves with ⟨_, hreturned, hbinds⟩
  exact ⟨(findsNodes_iff hreturned).mpr (hin.finds hclear), _, hreturned, hbinds⟩

/-- The normalisation of 16-bit numbers is refused. -/
theorem not_correct_of_type (hM : M.ComputesCells σ τ root) (hng : ng.ChecksCells)
    (hin : Inputs ng M nodes self p x h s) (hclear : ¬ Mistakes self p.variant)
    (hnormalised : p.variant.normalised = true) (hne : p.elementType ≠ .f32)
    {F : CellFunctions R} : ¬ Correct ng M nodes self p F x h s := by
  intro hboth
  rcases hboth with ⟨-, _, hreturned, -⟩
  refine hin.run hM hng hclear (P := fun outcome _ => outcome ≠ .ok ()) ?_ hreturned
  intro c hc hreturned
  have hrefused : Ends (answer ng) nodes (connected self c) fun _ _ => False := by
    unfold connected
    exact (refuses_cellOutputs hM hng hnormalised hne hc).bind_ends fun _ hfalse => hfalse.elim
  exact hrefused () hreturned

omit [IsStrictOrderedRing R] in
/-- For the documented codes but 0, the nodes compute the documented function. -/
theorem built_eq_documented (hdocumented : p.activationFn ∈ ([0, 1, 3, 4, 6] : List Int))
    (hcode : p.activationFn ≠ 0) :
    builtFunctions σ τ root p = documentedFunctions σ τ root p := by
  have hactivation : builtActivation σ τ p.activationFn =
      MemoryCell.activation σ τ p.activationFn := by
    funext v
    simp only [List.mem_cons, List.not_mem_nil, or_false] at hdocumented
    rcases hdocumented with hzero | hone | hthree | hfour | hsix
    · exact absurd hzero hcode
    · rw [hone]; rfl
    · rw [hthree]; rfl
    · rw [hfour]; rfl
    · rw [hsix]; rfl
  rw [builtFunctions, documentedFunctions, hactivation]

/-- A number that the bound lets through, other than a given one. -/
theorem exists_clip_eq (bound v : R) (hnonneg : 0 ≤ bound) :
    ∃ w, MemoryCell.clip bound w = w ∧ w ≠ v := by
  by_cases hzero : bound = 0
  · refine ⟨v + 1, by rw [MemoryCell.clip, if_pos hzero], ?_⟩
    simp
  have hneg : -bound ≤ 0 := neg_nonpos.mpr hnonneg
  by_cases hv : v = 0
  · refine ⟨bound, ?_, fun heq => hzero (heq.trans hv)⟩
    rw [MemoryCell.clip, if_neg hzero, max_eq_left (hneg.trans hnonneg), min_self]
  · refine ⟨0, ?_, fun heq => hv heq.symm⟩
    rw [MemoryCell.clip, if_neg hzero, max_eq_left hneg, min_eq_left hnonneg]

/-- Where the code asks for no activation, some sigmoid and hyperbolic tangent tell the
nodes from the cell. -/
theorem exists_nextState_ne (hnone : p.activationFn = 0) (root : R → R) (x h s : Tensor R) :
    ∃ σ τ, p.nextState (builtFunctions σ τ root p) x h s ≠
      p.nextState (documentedFunctions σ τ root p) x h s := by
  let σ : R → R := fun _ => 1 / 2
  have hforget : ∀ F : CellFunctions R, F.sigmoid = σ → p.forgetGate F x h s 0 0 = 1 / 2 := by
    intro F hF
    rw [MemoryCell.forgetGate, hF]
  have hinput : ∀ F : CellFunctions R, F.sigmoid = σ → p.inputGate F x h s 0 0 = 1 / 2 := by
    intro F hF
    unfold MemoryCell.inputGate
    split
    · rw [hforget F hF]
      norm_num
    · rw [hF]
  obtain ⟨w, hw, hne⟩ := exists_clip_eq p.cellClip
    (p.newState (documentedFunctions σ σ root p) x h s 0 0) p.cellClip_nonneg
  let τ : R → R := fun _ => 2 * w - s.get [0, 0]
  refine ⟨σ, τ, fun heq => hne ?_⟩
  have hinside : Inside [p.batch, p.units] [0, 0] :=
    ⟨⟨le_refl 0, Int.ofNat_lt.mpr p.batch_pos⟩, ⟨le_refl 0, Int.ofNat_lt.mpr p.units_pos⟩, trivial⟩
  have hbuilt : p.newState (builtFunctions σ τ root p) x h s 0 0 = w := by
    have hcandidate : p.candidate (builtFunctions σ τ root p) x h 0 0 = 2 * w - s.get [0, 0] := by
      rw [MemoryCell.candidate, builtFunctions, hnone]
      rfl
    have hsum : 1 / 2 * s.get [0, 0] + 1 / 2 * (2 * w - s.get [0, 0]) = w := by ring
    rw [MemoryCell.newState, hforget _ rfl, hinput _ rfl, hcandidate, hsum, hw]
  have hsame : p.newState (documentedFunctions σ τ root p) x h s 0 0 =
      p.newState (documentedFunctions σ σ root p) x h s 0 0 := by
    have hactivation : MemoryCell.activation σ τ p.activationFn =
        MemoryCell.activation σ σ p.activationFn := by
      rw [hnone]
      rfl
    rw [documentedFunctions, documentedFunctions, hactivation]
  have hentry := congrArg (fun y : Tensor R => y.get [0, 0]) heq
  simp only [MemoryCell.nextState, Tensor.get_matrix hinside] at hentry
  rw [← hbuilt, hentry, hsame]

/-- A cell without an activation is computed with one. -/
theorem not_correct_of_none {M : (R → R) → (R → R) → Meaning R}
    (hM : ∀ σ τ, (M σ τ).ComputesCells σ τ root) (hng : ng.ChecksCells)
    (hin : ∀ σ τ, Inputs ng (M σ τ) nodes self p x h s) (hclear : ¬ Mistakes self p.variant)
    (hf32 : p.variant.normalised = true → p.elementType = .f32) (hnone : p.activationFn = 0) :
    ¬ ∀ σ τ, Correct ng (M σ τ) nodes self p (documentedFunctions σ τ root p) x h s := by
  intro hcorrect
  obtain ⟨σ, τ, hne⟩ := exists_nextState_ne hnone root x h s
  obtain ⟨-, _, hreturned, hbuilt⟩ := correct_built (hM σ τ) hng (hin σ τ) hclear hf32
  obtain ⟨-, _, -, hdocumented⟩ := hcorrect σ τ
  rcases hbuilt.state with ⟨C, hC, hdenote⟩
  rcases hdocumented.state with ⟨C', hC', hdenote'⟩
  rw [hC] at hC'
  cases hC'
  exact hne (hdenote.symm.trans hdenote')

/-- **`LSTM`.**  For every variant of the cell, all sizes and all tensors: the graph is
well formed, and its outputs are those of a step of the cell whatever the sigmoid and the
hyperbolic tangent are, exactly when the code of the activation is not 0, what is normalised
is `f32`, and no absent input is taken to be there. -/
theorem denotes_step_iff {M : (R → R) → (R → R) → Meaning R}
    (hM : ∀ σ τ, (M σ τ).ComputesCells σ τ root) (hng : ng.ChecksCells)
    (hin : ∀ σ τ, Inputs ng (M σ τ) nodes self p x h s) :
    (∀ σ τ, Correct ng (M σ τ) nodes self p (documentedFunctions σ τ root p) x h s) ↔
      p.activationFn ≠ 0 ∧ (p.variant.normalised = true → p.elementType = .f32) ∧
        ¬ Mistakes self p.variant := by
  have hany := hin id id
  constructor
  · intro hcorrect
    have hclear : ¬ Mistakes self p.variant := fun hmistakes =>
      not_correct_of_mistakes hany hmistakes (hcorrect id id)
    have hf32 : p.variant.normalised = true → p.elementType = .f32 := by
      intro hnormalised
      by_contra hne
      exact not_correct_of_type (hM id id) hng hany hclear hnormalised hne (hcorrect id id)
    refine ⟨fun hnone => ?_, hf32, hclear⟩
    exact not_correct_of_none hM hng hin hclear hf32 hnone hcorrect
  · intro hboth σ τ
    rcases hboth with ⟨hcode, hf32, hclear⟩
    rw [← built_eq_documented hany.documented hcode]
    exact correct_built (hM σ τ) hng (hin σ τ) hclear hf32

end Inputs

end LSTM

/-! ### One unit -/

/-- A cell of one unit, without the optional parts but for its input gate. -/
def cellShapes : List (List Nat) :=
  [[1, 1], [1, 1], [1, 1], [1, 1], [1, 1], [1, 1], [1, 1], [1, 1], [1, 1], [], [], [],
    [1], [1], [1], [1], [], [], [1, 1], [1, 1]]

def oneUnit (code : UInt8) : OperationsBase :=
  sampleSequence .lstm cellShapes [(.int32, code), (.float32, 0), (.float32, 0)] 4

/-- Its tensors: every entry is one. -/
def ones (operand : Nat) : Tensors.Tensor ℚ := .ofFn (cellShapes.getD operand []) fun _ => 1

def oneUnitGate (k : Nat) (hk : k < 4) : MemoryGate ℚ 1 1 1 where
  weights := ones (1 + k)
  recurrentWeights := ones (5 + k)
  peephole := .ofFn [1] fun _ => 0
  norm := .ofFn [1] fun _ => 0
  bias := ones (12 + k)
  shape_weights := by match k with | 0 | 1 | 2 | 3 => rfl
  shape_recurrentWeights := by match k with | 0 | 1 | 2 | 3 => rfl
  shape_peephole := rfl
  shape_norm := rfl
  shape_bias := by match k with | 0 | 1 | 2 | 3 => rfl

def oneUnitCell (code : Int) : MemoryCell ℚ where
  batch := 1
  inputSize := 1
  units := 1
  outputSize := 1
  variant :=
    { coupled := false, peephole := false, normalised := false, projected := false
      biased := false }
  input := oneUnitGate 0 (by decide)
  forget := oneUnitGate 1 (by decide)
  cell := oneUnitGate 2 (by decide)
  output := oneUnitGate 3 (by decide)
  projectionWeights := .ofFn [1, 1] fun _ => 0
  projectionBias := .ofFn [1] fun _ => 0
  activationFn := code
  cellClip := 0
  projectionClip := 0
  elementType := .f32
  isFloat := ElementType.isFloat_f32
  batch_pos := Nat.one_pos
  units_pos := Nat.one_pos
  cellClip_nonneg := le_refl 0
  projectionClip_nonneg := le_refl 0
  shape_projectionWeights := rfl
  shape_projectionBias := rfl
  unprojected _ := rfl

/-- The meanings of the sample. -/
abbrev oneUnitMeaning (σ τ : ℚ → ℚ) : Meaning ℚ := cellReference ones id σ τ

theorem oneUnit_offers (code : UInt8) {σ τ : ℚ → ℚ} (index : Nat) (hindex : index < 20) :
    (oneUnit code).Offers .static (oneUnitMeaning σ τ) (sampleNodes cellShapes) .f32 index
      (ones index) where
  there := by
    right
    interval_cases index <;> rfl
  node := by
    refine ⟨.mk (.parameter index .f32 (cellShapes.getD index [])) [], ?_, ⟨rfl, rfl⟩, rfl⟩
    interval_cases index <;> rfl

theorem oneUnit_gate (code : UInt8) (value : Int) {σ τ : ℚ → ℚ} (k : Nat) (hk : k < 4) :
    LSTM.OffersGate .static (oneUnitMeaning σ τ) (sampleNodes cellShapes) (oneUnit code)
      (oneUnitCell value) (oneUnitGate k hk) k where
  weights := oneUnit_offers code (1 + k) (by omega)
  recurrentWeights := oneUnit_offers code (5 + k) (by omega)
  bias := oneUnit_offers code (12 + k) (by omega)

theorem oneUnit_consistent (code : UInt8) (value : Int) :
    LSTM.Consistent (oneUnit code) (oneUnitCell value).variant where
  inputs := .inl rfl
  inputGate i hi := by
    simp only [List.mem_cons, List.not_mem_nil, or_false] at hi
    rcases hi with rfl | rfl | rfl <;> rfl
  peephole i hi := by
    simp only [List.mem_cons, List.not_mem_nil, or_false] at hi
    rcases hi with rfl | rfl <;> rfl
  inputPeephole := nofun
  projection := rfl
  projectionBias := nofun
  unnormalised _ := rfl
  norm hsize := by cases hsize
  inputNorm := nofun

theorem zero_isBound : LSTM.IsBound .float32 0 (0 : ℚ) where
  type := .inl rfl
  word_nonneg := le_refl 0
  finite := nofun
  value := by
    have hfinite : Quantization.FloatFormat.binary32.Finite 0 := nofun
    have hzero : Quantization.FloatFormat.binary32.value 0 = 0 :=
      (Quantization.FloatFormat.value_eq_zero_iff hfinite).mpr rfl
    simp [CType.scalar, Scalar.value, hzero]

/-- No input is without a value. -/
theorem oneUnit_isOmittedInput (code : UInt8) (i : Nat) :
    (oneUnit code).isOmittedInput i = false := by
  have hvalues : ∀ j < 23, (oneUnit code).sModelInfo.getOperandLifetime j ≠ .noValue := by
    intro j hj
    interval_cases j <;> exact nofun
  have hindex : (oneUnit code).inputIndex i = (List.range 23).getD i 0 := rfl
  have hbelow : (oneUnit code).inputIndex i < 23 := by
    rw [hindex, List.getD_eq_getElem?_getD]
    by_cases hi : i < 23
    · simpa [List.getElem?_range hi] using hi
    · simp [hi]
  exact decide_eq_false (hvalues _ hbelow)

theorem oneUnit_inputs (code : UInt8) (value : Int) {σ τ : ℚ → ℚ}
    (hcode : ∃ word, (oneUnit code).Passes .static (sampleNodes cellShapes) .uint32 20 word ∧
      toInt32 word = value)
    (hdocumented : value ∈ ([0, 1, 3, 4, 6] : List Int)) :
    LSTM.Inputs .static (oneUnitMeaning σ τ) (sampleNodes cellShapes) (oneUnit code)
      (oneUnitCell value) (ones 0) (ones 18) (ones 19) where
  consistent := oneUnit_consistent code value
  input := oneUnit_offers code 0 (by decide)
  hiddenState := oneUnit_offers code 18 (by decide)
  cellState := oneUnit_offers code 19 (by decide)
  inputGate _ := oneUnit_gate code value 0 (by decide)
  forgetGate := oneUnit_gate code value 1 (by decide)
  cellGate := oneUnit_gate code value 2 (by decide)
  outputGate := oneUnit_gate code value 3 (by decide)
  inputPeephole := nofun
  forgetPeephole := nofun
  outputPeephole := nofun
  inputNorm := nofun
  forgetNorm := nofun
  cellNorm := nofun
  outputNorm := nofun
  projection := nofun
  projectionBias := nofun
  activationFn := hcode
  cellClip := ⟨0, rfl, zero_isBound⟩
  projectionClip := nofun
  omitted i hi := by
    rw [oneUnit_isOmittedInput] at hi
    cases hi
  hiddenDimensions := rfl
  stateDimensions := rfl
  shape_input := rfl
  shape_hidden := rfl
  shape_state := rfl
  documented := hdocumented
  distinct i j hij hj := by
    have hdistinct : ∀ j < 4, ∀ i < j, (oneUnit 0).outputIndex i ≠ (oneUnit 0).outputIndex j := by
      decide
    exact hdistinct j hj i hij

/-- Without an activation, the step is not that of the cell. -/
theorem oneUnit_activated :
    ¬ ∀ (root : ℚ → ℚ) (M : (ℚ → ℚ) → (ℚ → ℚ) → Meaning ℚ) (ng : Ngraph) (nodes : NgraphNodes)
      (self : OperationsBase) (p : MemoryCell ℚ) (x h s : Tensors.Tensor ℚ),
      (∀ σ τ, (M σ τ).ComputesCells σ τ root) → ng.ChecksCells →
      (∀ σ τ, LSTM.Inputs ng (M σ τ) nodes self p x h s) →
      ∀ σ τ, LSTM.Correct ng (M σ τ) nodes self p (LSTM.documentedFunctions σ τ root p) x h s := by
  intro hall
  have hin : ∀ σ τ : ℚ → ℚ, LSTM.Inputs .static (oneUnitMeaning σ τ) (sampleNodes cellShapes)
      (oneUnit 0) (oneUnitCell 0) (ones 0) (ones 18) (ones 19) := fun σ τ =>
    oneUnit_inputs 0 0 ⟨0, rfl, rfl⟩ (by decide)
  refine LSTM.not_correct_of_none (fun _ _ => cellReference_computes) Ngraph.static_checksCells hin
    ?_ nofun rfl ?_
  · decide
  · exact hall id oneUnitMeaning _ _ _ _ _ _ _ (fun _ _ => cellReference_computes)
      Ngraph.static_checksCells hin

/-! ### Every optional part -/

/-- A coupled cell with peephole connections, normalised sums and a projection with a bias:
what belongs to the input gate is omitted, and has no sizes. -/
def fullShapes : List (List Nat) :=
  [[2, 3], [], [2, 3], [2, 3], [2, 3], [], [2, 4], [2, 4], [2, 4], [], [2], [2], [], [2], [2], [2],
    [4, 2], [4], [2, 4], [2, 2], [], [2], [2], [2]]

/-- The tensors come first among the operands, the inputs have the scalars in between. -/
def fullUnits : OperationsBase :=
  let sample := sampleSequence .lstm fullShapes [(.int32, 4), (.float32, 0), (.float32, 0)] 4
  let operands := sample.sModelInfo.mModel.operands.map fun operand : Operand =>
    if operand.lifetime = .subgraphInput ∧ operand.dimensions = [] then
      { operand with lifetime := .noValue }
    else operand
  { sample with
    sModelInfo :=
      { mModel :=
          { sample.sModelInfo.mModel with
            operands
            operations :=
              [{ type := .lstm, inputs := List.range 20 ++ [24, 25, 26] ++ List.range' 20 4
                 outputs := List.range' 27 4 }] } } }

/-- The operands with sizes are bound. -/
def fullNodes : NgraphNodes where
  mOutputAtOperandIndex index :=
    if fullShapes.getD index [] = [] then none
    else some (.mk (.parameter index .f32 (fullShapes.getD index [])) [], 0)

/-- Every entry is one. -/
def fullOnes (operand : Nat) : Tensors.Tensor ℚ :=
  .ofFn (fullShapes.getD operand []) fun _ => 1

def fullGate : MemoryGate ℚ 3 2 4 where
  weights := .ofFn [2, 3] fun _ => 1
  recurrentWeights := .ofFn [2, 4] fun _ => 1
  peephole := .ofFn [2] fun _ => 1
  norm := .ofFn [2] fun _ => 1
  bias := .ofFn [2] fun _ => 1
  shape_weights := rfl
  shape_recurrentWeights := rfl
  shape_peephole := rfl
  shape_norm := rfl
  shape_bias := rfl

def fullCell : MemoryCell ℚ where
  batch := 2
  inputSize := 3
  units := 2
  outputSize := 4
  variant :=
    { coupled := true, peephole := true, normalised := true, projected := true, biased := true }
  input := fullGate
  forget := fullGate
  cell := fullGate
  output := fullGate
  projectionWeights := fullOnes 16
  projectionBias := fullOnes 17
  activationFn := 4
  cellClip := 0
  projectionClip := 0
  elementType := .f32
  isFloat := ElementType.isFloat_f32
  batch_pos := Nat.two_pos
  units_pos := Nat.two_pos
  cellClip_nonneg := le_refl 0
  projectionClip_nonneg := le_refl 0
  shape_projectionWeights := rfl
  shape_projectionBias := rfl
  unprojected := nofun

/-- The meanings of the sample. -/
abbrev fullMeaning (σ τ : ℚ → ℚ) : Meaning ℚ := cellReference fullOnes id σ τ

/-- What is not omitted is in the table. -/
theorem fullUnits_offers {σ τ : ℚ → ℚ} (index : Nat)
    (hindex : index ∈ [0, 2, 3, 4, 6, 7, 8, 10, 11, 13, 14, 15, 16, 17, 18, 19, 24, 25, 26]) :
    fullUnits.Offers .static (fullMeaning σ τ) fullNodes .f32 index
      (fullOnes (fullUnits.inputIndex index)) where
  there := by
    right
    fin_cases hindex <;> rfl
  node := by
    refine ⟨.mk (.parameter (fullUnits.inputIndex index) .f32
      (fullShapes.getD (fullUnits.inputIndex index) [])) [], ?_, ⟨rfl, rfl⟩, rfl⟩
    fin_cases hindex <;> rfl

theorem fullUnits_gate {σ τ : ℚ → ℚ} (k : Nat) (hk : k ∈ [1, 2, 3]) :
    LSTM.OffersGate .static (fullMeaning σ τ) fullNodes fullUnits fullCell fullGate k := by
  fin_cases hk
  all_goals
    exact ⟨fullUnits_offers _ (by decide), fullUnits_offers _ (by decide),
      fullUnits_offers _ (by decide)⟩

theorem fullUnits_consistent : LSTM.Consistent fullUnits fullCell.variant where
  inputs := .inr rfl
  inputGate i hi := by
    fin_cases hi <;> rfl
  peephole i hi := by
    fin_cases hi <;> rfl
  inputPeephole _ := nofun
  projection := rfl
  projectionBias _ := rfl
  unnormalised hsize := by cases hsize
  norm _ i hi := by
    fin_cases hi <;> rfl
  inputNorm _ := nofun

/-- An omitted operand has no node. -/
theorem fullUnits_omitted (i : Nat) (hi : fullUnits.isOmittedInput i = true) :
    fullNodes.bound (fullUnits.inputIndex i) = false := by
  have hinputs : ∀ j < 27, fullUnits.isOmittedInput j = true →
      fullNodes.bound (fullUnits.inputIndex j) = false := by
    decide +kernel
  have hindex : fullUnits.inputIndex i =
      (List.range 20 ++ [24, 25, 26] ++ List.range' 20 4).getD i 0 := rfl
  by_cases hlt : i < 27
  · exact hinputs i hlt hi
  · -- past the inputs the lookup gives operand 0, which has a value
    rw [List.getD_eq_default _ _ (not_lt.mp hlt)] at hindex
    have hvalue : fullUnits.sModelInfo.getOperandLifetime 0 = .subgraphInput := rfl
    have homitted := of_decide_eq_true hi
    rw [← OperationsBase.inputIndex, hindex, hvalue] at homitted
    cases homitted

theorem fullUnits_inputs {σ τ : ℚ → ℚ} :
    LSTM.Inputs .static (fullMeaning σ τ) fullNodes fullUnits fullCell (fullOnes 0) (fullOnes 18)
      (fullOnes 19) where
  consistent := fullUnits_consistent
  input := fullUnits_offers 0 (by decide)
  hiddenState := fullUnits_offers 18 (by decide)
  cellState := fullUnits_offers 19 (by decide)
  inputGate := nofun
  forgetGate := fullUnits_gate 1 (by decide)
  cellGate := fullUnits_gate 2 (by decide)
  outputGate := fullUnits_gate 3 (by decide)
  inputPeephole _ := nofun
  forgetPeephole _ := fullUnits_offers 10 (by decide)
  outputPeephole _ := fullUnits_offers 11 (by decide)
  inputNorm _ := nofun
  forgetNorm _ := fullUnits_offers 24 (by decide)
  cellNorm _ := fullUnits_offers 25 (by decide)
  outputNorm _ := fullUnits_offers 26 (by decide)
  projection _ := fullUnits_offers 16 (by decide)
  projectionBias _ _ := fullUnits_offers 17 (by decide)
  activationFn := ⟨4, rfl, rfl⟩
  cellClip := ⟨0, rfl, zero_isBound⟩
  projectionClip _ := ⟨0, rfl, zero_isBound⟩
  omitted := fullUnits_omitted
  hiddenDimensions := rfl
  stateDimensions := rfl
  shape_input := rfl
  shape_hidden := rfl
  shape_state := rfl
  documented := by decide
  distinct i j hij hj := by
    have hdistinct : ∀ j < 4, ∀ i < j, fullUnits.outputIndex i ≠ fullUnits.outputIndex j := by
      decide
    exact hdistinct j hj i hij

/-- With the hyperbolic tangent, the step is that of the cell. -/
theorem fullUnits_correct :
    LSTM.Correct .static (fullMeaning id id) fullNodes fullUnits fullCell
      (LSTM.documentedFunctions id id id fullCell) (fullOnes 0) (fullOnes 18) (fullOnes 19) :=
  (LSTM.denotes_step_iff (fun _ _ => cellReference_computes) Ngraph.static_checksCells fun _ _ =>
    fullUnits_inputs).mpr ⟨by decide, fun _ => rfl, by decide⟩ id id

end NnHal
