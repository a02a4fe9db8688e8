import NnHal.ConvolutionMeanings
import NnHal.LSTM
import NnHal.NgraphNetworkCreator

/-!
# The tests for an absent input

Five places of the code ask whether a tensor is there: the operations' base class, two of
the recurrent operations, and the loop that creates the parameters.  A tensor without
dimensions is absent for all of them.  Three look no further than the first dimension.
The base class multiplies the dimensions in `size_t`, where the product of dimensions none
of which is zero may be.
-/

namespace NnHal

open Command

/-! ## The tests as conditions on the dimensions -/

/-- The tensor has entries: it has dimensions, and none of them is zero. -/
def IsFull (dims : List Nat) : Prop := dims ≠ [] ∧ ∀ d ∈ dims, d ≠ 0

/-- Its first dimension is not zero. -/
def StartsNonzero (dims : List Nat) : Prop := ∃ d ∈ dims.head?, d ≠ 0

theorem foldl_mul_mod (m : Nat) (dims : List Nat) (size : Nat) :
    dims.foldl (fun size d => size * d % m) size % m = size * dims.prod % m := by
  induction dims generalizing size with
  | nil => rw [List.foldl_nil, List.prod_nil, Nat.mul_one]
  | cons d dims ih =>
      rw [List.foldl_cons, ih, List.prod_cons, Nat.mod_mul_mod, Nat.mul_assoc]

section Tests

variable {self : OperationsBase} {index : Nat}

theorem isValidInputTensor_iff :
    self.isValidInputTensor index = true ↔
      self.getInputOperandDimensions index ≠ [] ∧
        ¬ 2 ^ 64 ∣ (self.getInputOperandDimensions index).prod := by
  unfold OperationsBase.isValidInputTensor
  cases hdims : self.getInputOperandDimensions index with
  | nil => simp
  | cons d dims =>
      have hsmall : ∀ (l : List Nat) (size : Nat), size < 2 ^ 64 →
          l.foldl (fun size d => size * d % 2 ^ 64) size < 2 ^ 64 := by
        intro l
        induction l with
        | nil => exact fun _ h => h
        | cons e l ih => exact fun size _ => ih _ (Nat.mod_lt _ (Nat.two_pow_pos 64))
      have hfold := foldl_mul_mod (2 ^ 64) (d :: dims) 1
      rw [Nat.mod_eq_of_lt (hsmall _ 1 (by decide)), Nat.one_mul] at hfold
      simp only [List.isEmpty_cons, Bool.not_false, Bool.true_and, bne_iff_ne, ne_eq, hfold,
        reduceCtorEq, not_false_eq_true, true_and, Nat.dvd_iff_mod_eq_zero]

theorem isZeroSizedInput_iff :
    self.isZeroSizedInput index = false ↔
      StartsNonzero (self.getInputOperandDimensions index) := by
  unfold OperationsBase.isZeroSizedInput StartsNonzero
  cases self.getInputOperandDimensions index <;> simp

end Tests

/-! ## The parameters that are created -/

namespace NgraphNetworkCreator

/-- The operand of a parameter that is added. -/
def parameterOperand : Cmd → Option Nat
  | .addInputParam (.mk (.parameter operand _ _) _) => some operand
  | _ => none

theorem zeroSized_iff {operand : Operand} :
    zeroSized operand = false ↔ StartsNonzero operand.dimensions := by
  unfold zeroSized StartsNonzero
  cases operand.dimensions <;> simp

/-- The loop creates a parameter for every input but the zero-sized ones. -/
theorem createInputParams_parameters {ng : Ngraph} {info : NnapiModelInfo} {inputs : List Nat}
    (hng : ∀ operand type shape, ng.accepts (.parameter operand type shape) [] = true)
    (htypes : ∀ i ∈ inputs, parameterType (info.getOperand i).type ≠ none)
    (nodes : NgraphNodes) :
    (exec (answer ng) (createInputParams info inputs) nodes).selected parameterOperand =
      inputs.filter fun i => !zeroSized (info.getOperand i) := by
  induction inputs generalizing nodes with
  | nil => rfl
  | cons i inputs ih =>
      obtain ⟨htype, hrest⟩ := List.forall_mem_cons.mp htypes
      unfold createInputParams
      cases hzero : zeroSized (info.getOperand i) with
      | true =>
          rw [if_pos rfl, exec_perform_bind rfl, List.filter_cons_of_neg (by simp [hzero])]
          exact ih hrest _
      | false =>
          obtain ⟨type, htype⟩ := Option.ne_none_iff_exists'.mp htype
          rw [if_neg Bool.false_ne_true, List.filter_cons_of_pos (by simp [hzero])]
          have hmade :
              answer ng (.make (.parameter i type (info.getOperand i).dimensions) []) nodes =
              .ok (.mk (.parameter i type (info.getOperand i).dimensions) [], nodes) :=
            if_pos (hng i type _)
          simp only [htype, makeShared]
          rw [exec_perform_bind hmade, exec_perform_bind rfl, exec_perform_bind rfl]
          exact congrArg (i :: ·) (ih hrest _)

end NgraphNetworkCreator

/-! ## When the tests agree -/

/-- The tests for an input of an operation, and the creation of the parameters of the model,
among whose inputs the operand is, all ask for entries. -/
structure TestsAgree (ng : Ngraph) (nodes : NgraphNodes) (base : OperationsBase) (index : Nat)
    (inputs : List Nat) : Prop where
  operation : base.isValidInputTensor index = true ↔ IsFull (base.getInputOperandDimensions index)
  lstm : LSTM.isValidInputTensor base index = true ↔
    IsFull (base.getInputOperandDimensions index)
  bidirectional : BidirectionalSequenceRNN.isValidInputTensor base index = true ↔
    IsFull (base.getInputOperandDimensions index)
  zeroSized : base.isZeroSizedInput index = false ↔
    IsFull (base.getInputOperandDimensions index)
  parameter : base.inputIndex index ∈ (exec (answer ng)
      (NgraphNetworkCreator.createInputParams base.sModelInfo inputs) nodes).selected
        NgraphNetworkCreator.parameterOperand ↔
    IsFull (base.getInputOperandDimensions index)

/-- **The tests.**  They agree exactly when the tensor has no dimensions, or its first one
is zero, or none is and their product does not wrap to zero in `size_t`. -/
theorem testsAgree_iff {ng : Ngraph} (nodes : NgraphNodes) (self : OperationsBase) (index : Nat)
    (inputs : List Nat)
    (hng : ∀ operand type shape, ng.accepts (.parameter operand type shape) [] = true)
    (htypes : ∀ i ∈ inputs,
      NgraphNetworkCreator.parameterType (self.sModelInfo.getOperand i).type ≠ none)
    (hinput : self.inputIndex index ∈ inputs) :
    TestsAgree ng nodes self index inputs ↔
      self.getInputOperandDimensions index = [] ∨
        (self.getInputOperandDimensions index).head? = some 0 ∨
          (∀ d ∈ self.getInputOperandDimensions index, d ≠ 0) ∧
            ¬ 2 ^ 64 ∣ (self.getInputOperandDimensions index).prod := by
  have hparameter : self.inputIndex index ∈ (exec (answer ng)
      (NgraphNetworkCreator.createInputParams self.sModelInfo inputs) nodes).selected
        NgraphNetworkCreator.parameterOperand ↔
      StartsNonzero (self.getInputOperandDimensions index) := by
    rw [NgraphNetworkCreator.createInputParams_parameters hng htypes, List.mem_filter,
      Bool.not_eq_true', NgraphNetworkCreator.zeroSized_iff]
    exact and_iff_right hinput
  have hlstm : LSTM.isValidInputTensor self index = true ↔
      StartsNonzero (self.getInputOperandDimensions index) := by
    rw [← isZeroSizedInput_iff]
    simp [LSTM.isValidInputTensor]
  have hbidirectional : BidirectionalSequenceRNN.isValidInputTensor self index = true ↔
      StartsNonzero (self.getInputOperandDimensions index) := by
    rw [← isZeroSizedInput_iff]
    simp [BidirectionalSequenceRNN.isValidInputTensor]
  have hagree : TestsAgree ng nodes self index inputs ↔
      (self.getInputOperandDimensions index ≠ [] ∧
          ¬ 2 ^ 64 ∣ (self.getInputOperandDimensions index).prod ↔
        IsFull (self.getInputOperandDimensions index)) ∧
      (StartsNonzero (self.getInputOperandDimensions index) ↔
        IsFull (self.getInputOperandDimensions index)) := by
    rw [← isValidInputTensor_iff]
    constructor
    · exact fun h => ⟨h.operation, isZeroSizedInput_iff.symm.trans h.zeroSized⟩
    · intro hboth
      rcases hboth with ⟨hbase, hstart⟩
      exact ⟨hbase, hlstm.trans hstart, hbidirectional.trans hstart,
        isZeroSizedInput_iff.trans hstart, hparameter.trans hstart⟩
  rw [hagree]
  cases self.getInputOperandDimensions index with
  | nil => simp [IsFull, StartsNonzero]
  | cons d dims =>
      by_cases hd : d = 0
      · simp [IsFull, StartsNonzero, hd]
      · have hstart : StartsNonzero (d :: dims) := ⟨d, rfl, hd⟩
        have hfull : IsFull (d :: dims) ↔ ∀ e ∈ d :: dims, e ≠ 0 := and_iff_right nofun
        rw [hfull, iff_true_left hstart]
        simp only [List.head?_cons, Option.some.injEq, hd, reduceCtorEq, false_or, ne_eq,
          not_false_eq_true, true_and]
        exact ⟨fun h => ⟨h.2, h.1.mpr h.2⟩, fun h => ⟨iff_of_true h.2 h.1, h.1⟩⟩

/-- An operation with one input. -/
def oneInput (dims : List Nat) : OperationsBase := sampleOperation .relu [dims] []

theorem oneInput_agrees :
    TestsAgree .permissive {} (oneInput [2, 3]) 0 [0] :=
  (testsAgree_iff {} (oneInput [2, 3]) 0 [0] (fun _ _ _ => rfl) (by decide) (by decide)).mpr
    (.inr (.inr (by decide)))

/-- A second dimension of zero is overlooked. -/
theorem secondZero_disagrees :
    ¬ ∀ (ng : Ngraph) (nodes : NgraphNodes) (self : OperationsBase) (index : Nat)
      (inputs : List Nat),
      (∀ operand type shape, ng.accepts (.parameter operand type shape) [] = true) →
      (∀ i ∈ inputs,
        NgraphNetworkCreator.parameterType (self.sModelInfo.getOperand i).type ≠ none) →
      self.inputIndex index ∈ inputs → TestsAgree ng nodes self index inputs := by
  intro h
  have hagree := h .permissive {} (oneInput [2, 0]) 0 [0] (fun _ _ _ => rfl) (by decide)
    (by decide)
  have hfull : IsFull [2, 0] := hagree.lstm.mp (by decide)
  exact hfull.2 0 (by decide) rfl

end NnHal
