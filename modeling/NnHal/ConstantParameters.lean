import NnHal.GraphAccesses

/-!
# Parameters that are not constant

A class reads the parameters of its operation from the model's constants.  For
an operand without a constant value `getOperandMemory` returns the null pointer
with a plausible length, and nothing between it and the read looks at the
pointer.  Whether the parameter is constant is left to `validate`, and most
classes that read one do not ask.
-/

namespace NnHal

open Command Runs

/-- The input a use reads as a scalar or as a vector. -/
def Use.parameter : Use → Option Nat
  | .scalar _ input | .vector _ input => some input
  | _ => none

/-- Every value the run fetches belongs to a constant operand, and none is read
through the null buffer. -/
def ReadsConstants (info : NnapiModelInfo) (run : Ran NgraphNodes Cmd Stop Bool) : Prop :=
  ∀ sc ∈ run.trace,
    (∀ operand, sc.2 = .readOperand operand → info.isOperandLifeTimeConst operand = true) ∧
      ∀ operand, sc.2 ≠ .fault (.nullBuffer operand)

/-- The same for one touch. -/
def Access.readsConstant (info : NnapiModelInfo) : Access → Prop
  | .read operand => info.isOperandLifeTimeConst operand = true
  | .nullRead _ => False
  | _ => True

theorem readsConstants_iff {info : NnapiModelInfo} {run : Ran NgraphNodes Cmd Stop Bool} :
    ReadsConstants info run ↔
      ∀ sc ∈ run.trace, ∀ u, Cmd.access sc.2 = some u → u.readsConstant info := by
  refine forall₂_congr fun sc _ => ⟨fun ⟨hread, hnull⟩ u hu => ?_, fun h => ⟨?_, ?_⟩⟩
  · cases hc : sc.2 with
    | readOperand operand =>
        obtain rfl : Access.read operand = u := by simpa [hc, Cmd.access] using hu
        exact hread operand hc
    | fault f =>
        cases f with
        | nullBuffer operand => exact absurd hc (hnull operand)
        | _ => simp [hc, Cmd.access] at hu
    | _ =>
        simp only [hc, Cmd.access, Option.some.injEq, reduceCtorEq] at hu
        all_goals subst hu; trivial
  · intro operand hc
    exact h (.read operand) (by rw [hc]; rfl)
  · intro operand hc
    exact h (.nullRead operand) (by rw [hc]; rfl)

section Reads

variable {info : NnapiModelInfo} {operand : Nat}

theorem operandBuffer_isSome (h : info.isOperandLifeTimeConst operand = true) :
    (info.operandBuffer operand).isSome = true := by
  unfold NnapiModelInfo.isOperandLifeTimeConst NnapiModelInfo.getOperandLifetime at h
  rw [OperandLifeTime.isConst_iff] at h
  unfold NnapiModelInfo.operandBuffer
  rcases h with h | h <;> simp [h]

/-- What follows the fetch of a value looks at the pointer or stops. -/
theorem readsConstant_tail (h : info.isOperandLifeTimeConst operand = true) {fits : Prop}
    [Decidable fits] {empty : Bool} :
    ∀ u ∈ info.memoryAccesses operand ++
        (if fits then info.bufferAccesses operand empty else [.stop]), u.readsConstant info := by
  have hsome := operandBuffer_isSome h
  have hbuffer : info.bufferAccesses operand empty = [] := by
    simp [NnapiModelInfo.bufferAccesses, hsome]
  have hmemory : ∀ u ∈ info.memoryAccesses operand, u.readsConstant info := by
    intro u hu
    unfold NnapiModelInfo.memoryAccesses at hu
    rcases List.mem_cons.mp hu with rfl | hrest
    · exact h
    · have hstop : u = .stop := by
        split at hrest
        · split at hrest <;> simp_all
        · simpa using hrest
        · simp at hrest
      subst hstop
      trivial
  intro u hu
  rcases List.mem_append.mp hu with hleft | hright
  · exact hmemory u hleft
  · rw [hbuffer] at hright
    split at hright
    · simp at hright
    · obtain rfl := List.mem_singleton.mp hright
      trivial

/-- The fetch of a value comes first. -/
theorem read_mem_upto {rest : List Access} :
    .read operand ∈ upto Access.stops (info.memoryAccesses operand ++ rest) := by
  simp [NnapiModelInfo.memoryAccesses, upto, Access.stops]

end Reads

/-- A parameter is read, and safely so only from a constant. -/
theorem parameter_readsConstant (info : NnapiModelInfo) (operand : Nat) {fits : Prop}
    [Decidable fits] {empty : Bool} :
    (∀ u ∈ upto Access.stops (info.memoryAccesses operand ++
        (if fits then info.bufferAccesses operand empty else [.stop])), u.readsConstant info) ↔
      info.isOperandLifeTimeConst operand = true := by
  constructor
  · intro h
    exact h _ read_mem_upto
  · intro h u hu
    exact readsConstant_tail h u (mem_of_mem_upto hu)

theorem dequantizeAccesses_readsConstant (self : OperationsBase) (operand : Nat) :
    ∀ u ∈ self.dequantizeAccesses operand, u.readsConstant self.sModelInfo := by
  intro u hu
  have hstop : u = .stop := by
    unfold OperationsBase.dequantizeAccesses at hu
    split at hu
    · split at hu
      · split at hu <;> simp_all
      · simpa using hu
    · simp at hu
  subst hstop
  trivial

/-- `getInputNode` fetches the value of constants only. -/
theorem nodeAccesses_readsConstant (self : OperationsBase) (input : Nat) (dequantize : Bool) :
    ∀ u ∈ self.nodeAccesses input dequantize, u.readsConstant self.sModelInfo := by
  intro u hu
  have hdequantized : ∀ b : Bool, ∀ u ∈
      (if b then self.dequantizeAccesses (self.inputIndex input) else []),
      u.readsConstant self.sModelInfo := by
    intro b u hu
    split at hu
    · exact dequantizeAccesses_readsConstant self _ u hu
    · simp at hu
  unfold OperationsBase.nodeAccesses at hu
  by_cases hconst : self.sModelInfo.isOperandLifeTimeConst (self.inputIndex input) = true
  · simp only [hconst, if_true] at hu
    split at hu
    · obtain rfl := List.mem_singleton.mp hu
      trivial
    · rcases List.mem_append.mp hu with hvector | hrest
      · exact readsConstant_tail hconst u hvector
      · exact hdequantized _ u hrest
  · simp only [hconst, Bool.false_eq_true, if_false] at hu
    rcases List.mem_cons.mp hu with rfl | hrest
    · trivial
    · exact hdequantized _ u hrest

/-- **One use.**  It reads constants only exactly when its parameter, where it
has one, is constant. -/
theorem use_readsConstant (self : OperationsBase) (u : Use) :
    (∀ a ∈ upto Access.stops (self.accesses u), a.readsConstant self.sModelInfo) ↔
      ∀ input, u.parameter = some input → self.isInputConst input = true := by
  have hsafe : (∀ a ∈ self.accesses u, a.readsConstant self.sModelInfo) → u.parameter = none →
      ((∀ a ∈ upto Access.stops (self.accesses u), a.readsConstant self.sModelInfo) ↔
        ∀ input, u.parameter = some input → self.isInputConst input = true) := by
    intro hall hnone
    refine iff_of_true (fun a ha => hall a (mem_of_mem_upto ha)) ?_
    simp [hnone]
  cases u with
  | scalar T input | vector T input =>
      refine (parameter_readsConstant self.sModelInfo (self.inputIndex input)).trans ?_
      simp [Use.parameter, OperationsBase.isInputConst]
  | node input dequantize => exact hsafe (nodeAccesses_readsConstant self input dequantize) rfl
  | dequantize operand => exact hsafe (dequantizeAccesses_readsConstant self operand) rfl
  | channelQuant input =>
      refine hsafe ?_ rfl
      simp only [OperationsBase.accesses, OperationsBase.channelQuantAccesses]
      split <;> simp [Access.readsConstant]
  | rawOutput input | remove input | set operand bound =>
      refine hsafe ?_ rfl
      simp [OperationsBase.accesses, Access.readsConstant]

theorem NgraphNetworkCreator.inputAccesses_readsConstant (info : NnapiModelInfo)
    (inputs : List Nat) : ∀ u ∈ inputAccesses info inputs, u.readsConstant info := by
  induction inputs with
  | nil => simp [inputAccesses]
  | cons i inputs ih =>
      intro u hu
      unfold inputAccesses at hu
      split at hu
      · rcases List.mem_cons.mp hu with rfl | hrest
        · trivial
        · exact ih u hrest
      · split at hu
        · rcases List.mem_cons.mp hu with rfl | hrest
          · trivial
          · exact ih u hrest
        · simp at hu

/-- Every input that an operation of the model reads as a scalar or as a vector
is constant, as far as the operations are reached. -/
def ParametersConstant (creator : NgraphNetworkCreator) (statics : Statics) : Prop :=
  ∀ p ∈ creator.reachedUses statics, ∀ input, p.2.parameter = some input →
    p.1.isInputConst input = true

/-- **Constant parameters.**  Whatever ngraph does, graph generation fetches the
values of constants only, exactly when the parameter inputs of its operations
are constant. -/
theorem readsConstants_iff_parametersConstant (info : NnapiModelInfo)
    (device : IntelDeviceType) :
    (∀ ng, ReadsConstants info ((NgraphNetworkCreator.construct info device).1.generateRun
        (NgraphNetworkCreator.construct info device).2 ng)) ↔
      ParametersConstant (NgraphNetworkCreator.construct info device).1
        (NgraphNetworkCreator.construct info device).2 := by
  have hinput : ∀ u ∈ (NgraphNetworkCreator.construct info device).1.modelInputAccesses,
      u.readsConstant info := NgraphNetworkCreator.inputAccesses_readsConstant info _
  refine Iff.trans (forall_congr' fun ng => readsConstants_iff) ?_
  apply NgraphNetworkCreator.generateRun_all hinput
  intro p hp
  have hmodel : p.1.sModelInfo = info := NgraphNetworkCreator.modelUses_sModelInfo hp
  subst hmodel
  exact use_readsConstant p.1 p.2

/-- A model with one multiplication, whose activation is a model input. -/
def multiplicationModel : Model where
  operands :=
    [{ type := .tensorFloat32, dimensions := [2], lifetime := .subgraphInput },
     { type := .tensorFloat32, dimensions := [2], lifetime := .subgraphInput },
     { type := .int32, lifetime := .subgraphInput },
     { type := .tensorFloat32, dimensions := [2], lifetime := .subgraphOutput }]
  operations := [{ type := .mul, inputs := [0, 1, 2], outputs := [3] }]
  inputIndexes := [0, 1, 2]
  outputIndexes := [3]

/-- `Mul` has no `validate` of its own: the model is accepted, and the
activation is read through the null buffer. -/
theorem mul_reads_null_buffer :
    ¬ ∀ (info : NnapiModelInfo) (device : IntelDeviceType) (ng : Ngraph),
      info.mModel.WellFormed →
      (NgraphNetworkCreator.construct info device).1.Accepts
        (NgraphNetworkCreator.construct info device).2 ng →
      ReadsConstants info ((NgraphNetworkCreator.construct info device).1.generateRun
        (NgraphNetworkCreator.construct info device).2 ng) := by
  intro h
  have hreads := h ⟨multiplicationModel, []⟩ .cpu .permissive (by decide) rfl
  rw [readsConstants_iff] at hreads
  have hnull : Access.nullRead 2 ∈ ((NgraphNetworkCreator.construct ⟨multiplicationModel, []⟩
      .cpu).1.generateRun (NgraphNetworkCreator.construct ⟨multiplicationModel, []⟩ .cpu).2
      .permissive).selected Cmd.access := by decide
  obtain ⟨sc, hsc, haccess⟩ := List.mem_filterMap.mp hnull
  exact hreads sc hsc _ haccess

end NnHal
