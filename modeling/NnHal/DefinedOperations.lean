import Mathlib.Tactic.IntervalCases
import NnHal.Divisions

/-!
# Operations whose construction is defined

The fully connected layer divides by the width of its weights, a sequence by
its number of time steps.  Together with the convolutions and the pooling
classes these are the operations that divide; `DividingOperation` lists them,
and says for each what its values have to satisfy for `createNode` to be
defined.  No `validate` checks all of it.
-/

namespace NnHal

open Command Runs

variable {self : OperationsBase}

/-! ## Fully connected -/

section FullyConnected

/-- The input is reshaped to rows of the weights' width. -/
def FullyConnected.reshapes (self : OperationsBase) : Bool :=
  2 < (self.getInputOperandDimensions 0).length ∨
    (self.getInputOperandDimensions 0).getD 1 0 ≠ (self.getInputOperandDimensions 1).getD 1 0

/-- The width of the weights is looked up. -/
def FullyConnected.widthHazards (self : OperationsBase) : List Hazard :=
  if 1 < (self.getInputOperandDimensions 1).length then [] else [.dimension]

def FullyConnected.hazards (self : OperationsBase) : List Hazard :=
  (if 2 < (self.getInputOperandDimensions 0).length then []
    else FullyConnected.widthHazards self) ++
  if FullyConnected.reshapes self then
    FullyConnected.widthHazards self ++
      (divisionHazard ((self.getInputOperandDimensions 1).getD 1 0) ++
        FullyConnected.widthHazards self)
  else []

/-- What the layer needs of the values it is given. -/
structure FullyConnectedDefined (base : OperationsBase) : Prop where
  width : 1 < (base.getInputOperandDimensions 1).length
  divisor : FullyConnected.reshapes base = true → (base.getInputOperandDimensions 1).getD 1 0 ≠ 0

theorem FullyConnected.accepts_rank {ng : Ngraph} {nodes : NgraphNodes}
    (h : Accepts ng nodes (FullyConnected.validate self)) :
    2 ≤ (self.getInputOperandDimensions 0).length := by
  obtain ⟨-, hrank⟩ := Accepts.of_ite h
  have hok : Except.ok (ε := Stop) (decide (2 ≤ (self.getInputOperandDimensions 0).length)) =
      .ok true := hrank
  injection hok with hdecide
  exact of_decide_eq_true hdecide

theorem FullyConnected.issues_reshapes (hrank : 2 ≤ (self.getInputOperandDimensions 0).length) :
    Issues Cmd.hazard
      (if (self.getInputOperandDimensions 0).length > 2 then pure true else do
        let inputWidth ← dimAt (self.getInputOperandDimensions 0) 1
        let weightWidth ← dimAt (self.getInputOperandDimensions 1) 1
        pure (decide (inputWidth ≠ weightWidth)) : Gen Bool)
      (if 2 < (self.getInputOperandDimensions 0).length then []
        else FullyConnected.widthHazards self)
      (· = FullyConnected.reshapes self) := by
  refine issues_ite (fun hlong => issues_pure ?_) fun hlong => ?_
  · simp [reshapes, hlong]
  · apply (issues_dimAt_of_lt (by omega)).step
    intro inputWidth hinput
    rw [← List.append_nil (FullyConnected.widthHazards self)]
    refine (issues_dimAt _ 1).bind fun weightWidth hweight => issues_pure ?_
    subst hinput hweight
    simp [reshapes, hlong]

theorem FullyConnected.follows_multiplyNode {inputNode weightsNode : Node}
    (hrank : 2 ≤ (self.getInputOperandDimensions 0).length) :
    Follows Cmd.hazard (FullyConnected.multiplyNode self inputNode weightsNode)
      (FullyConnected.hazards self) := by
  have hreshapes := FullyConnected.issues_reshapes hrank
  apply hreshapes.follows.bind_yields hreshapes.yields
  intro reshapes hr
  subst hr
  refine follows_ite (fun _ => ?_) fun _ => quiet_perform rfl
  apply (issues_dimAt _ 1).follows.bind_yields (issues_dimAt _ 1).yields
  intro width hwidth
  subst hwidth
  refine (follows_divInt _ _).bind fun _ => ?_
  refine (issues_dimAt _ 1).follows.bind_quiet fun _ => calm_const.bind fun _ => ?_
  exact Quiet.bind (quiet_perform rfl) fun _ => quiet_perform rfl

/-- The inputs of the layer are those of its signature. -/
def FullyConnected.Signed (self : OperationsBase) : Prop :=
  ∀ u ∈ FullyConnected.uses self, u.Signed self none

theorem FullyConnected.calm_addNode (hsig : FullyConnected.Signed self) {node : Node} :
    Quiet Cmd.hazard (FullyConnected.addNode self node) := by
  unfold FullyConnected.addNode
  by_cases hbias : FullyConnected.hasBias self = true
  · have hnode : (Use.node 2).Signed self none :=
      hsig _ (by simp [FullyConnected.uses, FullyConnected.biasUses, hbias])
    rw [if_pos hbias]
    refine (calm_tensor hnode (by decide)).bind fun _ => Quiet.bind ?_ fun _ => quiet_perform rfl
    exact quiet_ite (calm_dequantizeNode (hnode.channelInRank (by decide))) (quiet_pure _)
  · rw [if_neg hbias]
    exact quiet_pure _

theorem FullyConnected.createNode_hazards (hsig : FullyConnected.Signed self)
    (hrank : 2 ≤ (self.getInputOperandDimensions 0).length) :
    Follows Cmd.hazard (FullyConnected.createNode self) (FullyConnected.hazards self) := by
  have hinput : (Use.node 0).Signed self none := hsig _ (by simp [FullyConnected.uses])
  have hweights : (Use.node 1).Signed self none := hsig _ (by simp [FullyConnected.uses])
  have hactivation : (Use.scalar .uint32 3).Signed self none :=
    hsig _ (by simp [FullyConnected.uses])
  refine (calm_tensor hinput (by decide)).bind fun _ => ?_
  refine (calm_tensor hweights (by decide)).bind fun _ => ?_
  refine (FullyConnected.follows_multiplyNode hrank).bind_quiet fun _ => ?_
  refine (FullyConnected.calm_addNode hsig).bind fun _ => ?_
  exact (issues_parseOperationInput hactivation).follows.bind fun _ => calm_applyActivation

theorem FullyConnected.harmful_hazards :
    ∀ h ∈ FullyConnected.hazards self, h.harmful = true := by
  have hwidth : ∀ h ∈ FullyConnected.widthHazards self, h.harmful = true := by
    unfold FullyConnected.widthHazards
    split <;> simp [Hazard.harmful]
  unfold FullyConnected.hazards
  rw [List.forall_mem_append]
  constructor
  · split
    · simp
    · exact hwidth
  · split
    · exact List.forall_mem_append.mpr
        ⟨hwidth, List.forall_mem_append.mpr ⟨harmful_divisionHazard, hwidth⟩⟩
    · simp

theorem FullyConnected.hazards_eq_nil :
    FullyConnected.hazards self = [] ↔ FullyConnectedDefined self := by
  have hiff : FullyConnectedDefined self ↔ 1 < (self.getInputOperandDimensions 1).length ∧
      (FullyConnected.reshapes self = true →
        (self.getInputOperandDimensions 1).getD 1 0 ≠ 0) :=
    ⟨fun h => ⟨h.width, h.divisor⟩, fun h => ⟨h.1, h.2⟩⟩
  have hwidth : FullyConnected.widthHazards self = [] ↔
      1 < (self.getInputOperandDimensions 1).length := by
    unfold FullyConnected.widthHazards
    split <;> simp_all
  have hlong : 2 < (self.getInputOperandDimensions 0).length →
      FullyConnected.reshapes self = true := by
    intro h
    simp [reshapes, h]
  rw [hiff]
  unfold FullyConnected.hazards
  rw [List.append_eq_nil_iff]
  by_cases hr : FullyConnected.reshapes self = true
  · rw [if_pos hr, List.append_eq_nil_iff, List.append_eq_nil_iff, hwidth, divisionHazard_eq_nil,
      Int.natCast_ne_zero]
    split <;> simp_all
  · have hshort : ¬ 2 < (self.getInputOperandDimensions 0).length := fun h => hr (hlong h)
    rw [if_neg hr, if_neg hshort, hwidth]
    simp [hr]

end FullyConnected

/-! ## Sequences -/

section Sequence

/-- The time axis is looked up. -/
def timeHazards (self : OperationsBase) (isTimeMajor : Bool) : List Hazard :=
  if (if isTimeMajor then 0 else 1) < (self.getInputOperandDimensions 0).length then []
  else [.dimension]

/-- The input is split along time. -/
def splitHazard (maxTime : Nat) : List Hazard :=
  if maxTime = 0 then [.noPart] else []

/-- What a sequence needs of the values it is given. -/
structure SequenceDefined (splitsIntoNone isTimeMajor : Bool) (base : OperationsBase) : Prop where
  time : (if isTimeMajor then 0 else 1) < (base.getInputOperandDimensions 0).length
  steps : splitsIntoNone = true → base.timeSteps isTimeMajor ≠ 0

theorem issues_maxTime (isTimeMajor : Bool) :
    Issues Cmd.hazard (self.maxTime isTimeMajor) (timeHazards self isTimeMajor)
      (· = self.timeSteps isTimeMajor) :=
  issues_dimAt _ _

theorem follows_split {maxTime : Nat} {args : List Output} :
    Follows Cmd.hazard (makeShared (.split maxTime) args) (splitHazard maxTime) := by
  unfold splitHazard
  cases maxTime with
  | zero => exact follows_perform rfl
  | succ n => exact quiet_perform rfl

theorem calm_rnnProducts {x : Output} {W R bias hidden : Node} :
    Quiet Cmd.hazard (rnnProducts x W R bias hidden) := by
  refine Quiet.bind (quiet_perform rfl) fun _ => Quiet.bind (quiet_perform rfl) fun _ => ?_
  exact Quiet.bind (quiet_perform rfl) fun _ => quiet_pure _

theorem calm_rnnOutput {input_W add : Node} {activationFn : Int} :
    Quiet Cmd.hazard (rnnOutput input_W add activationFn) :=
  Quiet.bind (quiet_perform rfl) fun _ => calm_applyActivation

theorem follows_joinSteps {inputNode : Node} {maxTime : Nat} {outputs : List Node} :
    Follows Cmd.hazard (joinSteps inputNode maxTime outputs) (divisionHazard maxTime) := by
  refine Quiet.bind (quiet_perform rfl) fun _ => calm_shapeAt.bind fun _ => ?_
  refine (follows_divInt _ _).bind_quiet fun _ => calm_shapeAt.bind fun _ => ?_
  refine Quiet.bind (quiet_perform rfl) fun _ => calm_const.bind fun _ => quiet_perform rfl

namespace UnidirectionalSequenceRNN

/-- The loop over the steps, by induction on them. -/
theorem calm_steps {inputSplit W R bias hidden : Node} {activationFn : Int} (times : List Nat) :
    Quiet Cmd.hazard (steps inputSplit W R bias activationFn times hidden) := by
  induction times generalizing hidden with
  | nil => exact quiet_pure _
  | cons i times ih =>
      refine calm_const.bind fun _ => Quiet.bind (quiet_perform rfl) fun _ => ?_
      refine Quiet.bind (calm_rnnProducts.bind fun _ => calm_rnnOutput) fun _ => ?_
      exact ih.bind fun _ => quiet_pure _

def hazards (self : OperationsBase) : List Hazard :=
  timeHazards self (isTimeMajor self) ++
    (splitHazard (self.timeSteps (isTimeMajor self)) ++
      divisionHazard (self.timeSteps (isTimeMajor self)))

/-- The inputs of the sequence are those of its signature. -/
def Signed (self : OperationsBase) : Prop := ∀ u ∈ uses self, u.Signed self none

theorem createNode_hazards (hsig : Signed self) :
    Follows Cmd.hazard (createNode self) (hazards self) := by
  have hnode : ∀ i < 5, (Use.node i).Signed self none := by
    intro i hi
    apply hsig
    interval_cases i <;> simp [uses]
  have hscalar : ∀ i, i = 5 ∨ i = 6 → (Use.scalar .uint32 i).Signed self none := by
    intro i hi
    apply hsig
    rcases hi with rfl | rfl <;> simp [uses]
  have htensor : ∀ i < 5, Quiet Cmd.hazard (self.getInputNode i) :=
    fun i hi => calm_tensor (hnode i hi) (by simp)
  refine (htensor 0 (by omega)).bind fun _ => (htensor 1 (by omega)).bind fun _ => ?_
  refine (htensor 2 (by omega)).bind fun _ => (htensor 3 (by omega)).bind fun _ => ?_
  refine (htensor 4 (by omega)).bind fun _ => ?_
  refine (issues_parseOperationInput (hscalar 5 (.inl rfl))).follows.bind fun _ => ?_
  have htime := issues_parseOperationInput (hscalar 6 (.inr rfl))
  apply htime.follows.bind_yields htime.yields
  intro timeMajor hmajor
  subst hmajor
  refine calm_transposeUnless.bind fun _ => ?_
  have hmax := @issues_maxTime self (isTimeMajor self)
  apply hmax.follows.bind_yields hmax.yields
  intro maxTime hsteps
  subst hsteps
  refine calm_const.bind fun _ => follows_split.bind fun _ => (calm_steps _).bind fun _ => ?_
  refine follows_joinSteps.bind_quiet fun _ => calm_transposeUnless.bind fun _ => ?_
  exact calm_setOperationOutput.bind fun _ => quiet_ite calm_setOperationOutput (quiet_pure _)

end UnidirectionalSequenceRNN

namespace BidirectionalSequenceRNN

theorem calm_addAux {aux : Aux} {auxInput : Output} {dims auxWeights add : Node} :
    Quiet Cmd.hazard (addAux aux auxInput dims auxWeights add) := by
  refine quiet_ite ?_ (quiet_pure _)
  refine Quiet.bind (quiet_perform rfl) fun _ => Quiet.bind (quiet_perform rfl) fun _ => ?_
  exact Quiet.bind (quiet_perform rfl) fun _ => quiet_pure _

theorem calm_forward {aux : Aux} {inputSplit auxInputSplit W R bias auxWeights hidden : Node}
    {activationFn : Int} (times : List Nat) :
    Quiet Cmd.hazard
      (forward aux inputSplit auxInputSplit W R bias auxWeights activationFn times hidden) := by
  induction times generalizing hidden with
  | nil => exact quiet_pure _
  | cons i times ih =>
      refine calm_const.bind fun _ => Quiet.bind (quiet_perform rfl) fun _ => ?_
      refine calm_rnnProducts.bind fun _ => calm_addAux.bind fun _ => ?_
      exact calm_rnnOutput.bind fun _ => ih.bind fun _ => quiet_pure _

theorem calm_backward {aux : Aux} {W R bias auxWeights hidden : Node} {activationFn : Int}
    (steps : List Step) :
    Quiet Cmd.hazard (backward aux W R bias auxWeights activationFn steps hidden) := by
  induction steps generalizing hidden with
  | nil => exact quiet_pure _
  | cons step steps ih =>
      refine calm_const.bind fun _ => Quiet.bind (quiet_perform rfl) fun _ => ?_
      refine calm_rnnProducts.bind fun _ => calm_addAux.bind fun _ => ?_
      exact calm_rnnOutput.bind fun _ => ih.bind fun _ => quiet_pure _

theorem calm_mapM_deref (nodes : List NodePtr) : Quiet Cmd.hazard (nodes.mapM deref) := by
  induction nodes with
  | nil => exact quiet_pure _
  | cons node nodes ih =>
      rw [List.mapM_cons]
      exact calm_deref.bind fun _ => ih.bind fun _ => quiet_pure _

theorem calm_setOutputs {mergeOutputs : Bool} {fwOutputNode bwOutputNode : Node}
    {fwLast bwLast : NodePtr} :
    Quiet Cmd.hazard
      (setOutputs self mergeOutputs fwOutputNode bwOutputNode fwLast bwLast) := by
  refine calm_setOperationOutput.bind fun _ => ?_
  refine Quiet.bind (quiet_ite (quiet_pure _) calm_setOperationOutput) fun _ => ?_
  refine quiet_ite ?_ (quiet_pure _)
  exact calm_setOperationOutput.bind fun _ => calm_setOperationOutput

theorem calm_removeAux : Quiet Cmd.hazard (removeAux self) := by
  refine quiet_ite ?_ (quiet_pure _)
  refine Quiet.bind (quiet_perform rfl) fun _ => Quiet.bind (quiet_perform rfl) fun _ => ?_
  exact quiet_perform rfl

def hazards (self : OperationsBase) : List Hazard :=
  timeHazards self (isTimeMajor self) ++
    (splitHazard (self.timeSteps (isTimeMajor self)) ++
      ((if auxInputs self = .absent then []
        else splitHazard (self.timeSteps (isTimeMajor self))) ++
      (divisionHazard (self.timeSteps (isTimeMajor self)) ++
        divisionHazard (self.timeSteps (isTimeMajor self)))))

/-- The inputs of the sequence are those of its signature. -/
def Signed (self : OperationsBase) : Prop := ∀ u ∈ uses self, u.Signed self none

theorem createNode_hazards (hsig : Signed self) :
    Follows Cmd.hazard (createNode self) (hazards self) := by
  have htensor : ∀ i < 12, Quiet Cmd.hazard (self.getInputNode i) := by
    intro i hi
    refine @calm_tensor self none i true (hsig _ ?_) (by simp)
    interval_cases i <;> simp [uses]
  have hactivation : (Use.scalar .uint32 12).Signed self none := hsig _ (by simp [uses])
  have htime := issues_parseOperationInput (hsig (.scalar .uint8 13) (by simp [uses]))
  have hmerge : (Use.scalar .uint8 14).Signed self none := hsig _ (by simp [uses])
  refine (htensor 0 (by omega)).bind fun _ => (htensor 1 (by omega)).bind fun _ => ?_
  refine (htensor 2 (by omega)).bind fun _ => (htensor 3 (by omega)).bind fun _ => ?_
  refine (htensor 4 (by omega)).bind fun _ => (htensor 5 (by omega)).bind fun _ => ?_
  refine (htensor 6 (by omega)).bind fun _ => (htensor 7 (by omega)).bind fun _ => ?_
  refine (htensor 8 (by omega)).bind fun _ => (htensor 9 (by omega)).bind fun _ => ?_
  refine (htensor 10 (by omega)).bind fun _ => (htensor 11 (by omega)).bind fun _ => ?_
  refine calm_removeAux.bind fun _ => ?_
  refine (issues_parseOperationInput hactivation).follows.bind fun _ => ?_
  apply htime.follows.bind_yields htime.yields
  intro timeMajor hmajor
  subst hmajor
  refine (issues_parseOperationInput hmerge).follows.bind fun _ => ?_
  have hmax := @issues_maxTime self (isTimeMajor self)
  apply hmax.follows.bind_yields hmax.yields
  intro maxTime hsteps
  subst hsteps
  refine calm_transposeUnless.bind fun _ => calm_transposeUnless.bind fun _ => ?_
  refine calm_const.bind fun _ => follows_split.bind fun _ => ?_
  refine Follows.bind (follows_ite (fun _ => quiet_pure _) fun _ => follows_split) fun _ => ?_
  refine (calm_forward _).bind fun _ => (calm_backward _).bind fun _ => ?_
  refine follows_joinSteps.bind fun _ => (calm_mapM_deref _).bind fun _ => ?_
  refine follows_joinSteps.bind_quiet fun _ => ?_
  refine calm_transposeUnless.bind fun _ => calm_transposeUnless.bind fun _ => ?_
  exact Quiet.bind (quiet_ite (quiet_perform rfl) (quiet_pure _)) fun _ => calm_setOutputs

end BidirectionalSequenceRNN

/-- The hazards of a sequence: the time axis, then the splits, then the
divisions by the number of steps. -/
theorem sequence_harmless_iff {splitsIntoNone isTimeMajor : Bool} {splits divisions : List Hazard}
    (hsplits : ∀ h ∈ splits, h = .noPart)
    (hnone : self.timeSteps isTimeMajor = 0 → splits ≠ [] ∧
      ∃ rest, divisions = .divideByZero :: rest)
    (hsome : self.timeSteps isTimeMajor ≠ 0 → splits = [] ∧ divisions = []) :
    (∀ h ∈ upto (Hazard.stops splitsIntoNone)
        (timeHazards self isTimeMajor ++ (splits ++ divisions)), h.harmful = false) ↔
      SequenceDefined splitsIntoNone isTimeMajor self := by
  have hiff : SequenceDefined splitsIntoNone isTimeMajor self ↔
      (if isTimeMajor then 0 else 1) < (self.getInputOperandDimensions 0).length ∧
        (splitsIntoNone = true → self.timeSteps isTimeMajor ≠ 0) :=
    ⟨fun h => ⟨h.time, h.steps⟩, fun h => ⟨h.1, h.2⟩⟩
  rw [hiff]
  unfold timeHazards
  by_cases htime : (if isTimeMajor then 0 else 1) < (self.getInputOperandDimensions 0).length
  · simp only [htime, if_true, List.nil_append, true_and]
    by_cases hsteps : self.timeSteps isTimeMajor = 0
    · obtain ⟨hne, rest, hrest⟩ := hnone hsteps
      subst hrest
      cases splitsIntoNone with
      | false =>
          -- the first split ends the run
          obtain ⟨h, hs, rfl⟩ := List.exists_cons_of_ne_nil hne
          obtain rfl := hsplits h List.mem_cons_self
          simp [upto, Hazard.stops, Hazard.harmful]
      | true =>
          have hpass : splits.any (Hazard.stops true) = false := by
            rw [List.any_eq_false]
            intro h hmem
            rw [hsplits h hmem]
            decide
          simp only [hsteps, ne_eq, not_true_eq_false, imp_false]
          rw [upto_append, if_neg (by rw [hpass]; decide)]
          refine iff_of_false (fun hsafe => ?_) id
          have hdivision := hsafe .divideByZero (by simp [upto, Hazard.stops])
          cases hdivision
    · obtain ⟨hsplit, hdivision⟩ := hsome hsteps
      subst hsplit hdivision
      simp [upto, hsteps]
  · simp only [htime, if_false, false_and, iff_false]
    simp [upto, Hazard.stops, Hazard.harmful]

theorem UnidirectionalSequenceRNN.harmless_iff {splitsIntoNone : Bool} :
    (∀ h ∈ upto (Hazard.stops splitsIntoNone) (UnidirectionalSequenceRNN.hazards self),
        h.harmful = false) ↔
      SequenceDefined splitsIntoNone (UnidirectionalSequenceRNN.isTimeMajor self) self := by
  refine sequence_harmless_iff ?_ ?_ ?_
  · unfold splitHazard
    split <;> simp
  · intro h
    simp [splitHazard, divisionHazard, h]
  · intro h
    simp [splitHazard, h]

theorem BidirectionalSequenceRNN.harmless_iff {splitsIntoNone : Bool} :
    (∀ h ∈ upto (Hazard.stops splitsIntoNone) (BidirectionalSequenceRNN.hazards self),
        h.harmful = false) ↔
      SequenceDefined splitsIntoNone (BidirectionalSequenceRNN.isTimeMajor self) self := by
  unfold BidirectionalSequenceRNN.hazards
  rw [← List.append_assoc (splitHazard _)]
  refine sequence_harmless_iff ?_ ?_ ?_
  · unfold splitHazard
    split <;> split <;> simp
  · intro h
    simp [splitHazard, divisionHazard, h]
  · intro h
    simp [splitHazard, h]

end Sequence

/-! ## The operations that divide -/

/-- The convolutions, the pooling classes, the fully connected layer and the
sequences. -/
inductive DividingOperation
  | conv2d | depthwiseConv2d | groupedConv2d
  | averagePool2d | maxPool2d | l2Pool2d
  | fullyConnected
  | unidirectionalSequenceRnn | bidirectionalSequenceRnn
  deriving DecidableEq, Repr

namespace DividingOperation

def type : DividingOperation → OperationType
  | conv2d => .conv2d
  | depthwiseConv2d => .depthwiseConv2d
  | groupedConv2d => .groupedConv2d
  | averagePool2d => .averagePool2d
  | maxPool2d => .maxPool2d
  | l2Pool2d => .l2Pool2d
  | fullyConnected => .fullyConnected
  | unidirectionalSequenceRnn => .unidirectionalSequenceRnn
  | bidirectionalSequenceRnn => .bidirectionalSequenceRnn

/-- A sequence binds its outputs itself. -/
abbrev Result : DividingOperation → Type
  | unidirectionalSequenceRnn | bidirectionalSequenceRnn => Unit
  | _ => Node

def createNode : (op : DividingOperation) → OperationsBase → Gen op.Result
  | conv2d => Conv2d.createNode
  | depthwiseConv2d => DepthwiseConv2d.createNode
  | groupedConv2d => GroupedConv2d.createNode
  | averagePool2d => AveragePool2D.createNode
  | maxPool2d => MaxPool2d.createNode
  | l2Pool2d => L2Pooling2D.createNode
  | fullyConnected => FullyConnected.createNode
  | unidirectionalSequenceRnn => UnidirectionalSequenceRNN.createNode
  | bidirectionalSequenceRnn => BidirectionalSequenceRNN.createNode

def validate : DividingOperation → OperationsBase → Gen Bool
  | conv2d => Conv2d.validate
  | depthwiseConv2d => DepthwiseConv2d.validate
  | groupedConv2d => GroupedConv2d.validate
  | averagePool2d => AveragePool2D.validate
  | fullyConnected => FullyConnected.validate
  | maxPool2d | l2Pool2d | unidirectionalSequenceRnn | bidirectionalSequenceRnn =>
      OperationClass.accept

/-- These are the validations of the classes the factory makes for their
types. -/
theorem getOperation_type (op : DividingOperation) :
    ∃ cls, OperationsFactory.getOperation op.type = some cls ∧ cls.validate = op.validate := by
  cases op <;> exact ⟨_, rfl, rfl⟩

/-- The signature of the operation has been checked, its values have not. -/
def Signed (op : DividingOperation) (self : OperationsBase) : Prop :=
  match op with
  | conv2d => ConvSigned Conv2d.cls self
  | depthwiseConv2d => ConvSigned DepthwiseConv2d.cls self
  | groupedConv2d => ConvSigned GroupedConv2d.cls self
  | averagePool2d | maxPool2d | l2Pool2d => PoolSigned self
  | fullyConnected => FullyConnected.Signed self
  | unidirectionalSequenceRnn => UnidirectionalSequenceRNN.Signed self
  | bidirectionalSequenceRnn => BidirectionalSequenceRNN.Signed self

/-- What the values have to satisfy. -/
def ValuesDefined (op : DividingOperation) (splitsIntoNone : Bool) (self : OperationsBase) :
    Prop :=
  match op with
  | conv2d => ConvDefined Conv2d.cls 0 self
  | depthwiseConv2d => ConvDefined DepthwiseConv2d.cls 1 self
  | groupedConv2d => ConvDefined GroupedConv2d.cls 1 self
  | averagePool2d => PoolDefined AveragePool2D.cls self
  | maxPool2d => PoolDefined MaxPool2d.cls self
  | l2Pool2d => PoolDefined L2Pooling2D.cls self
  | fullyConnected => FullyConnectedDefined self
  | unidirectionalSequenceRnn =>
      SequenceDefined splitsIntoNone (UnidirectionalSequenceRNN.isTimeMajor self) self
  | bidirectionalSequenceRnn =>
      SequenceDefined splitsIntoNone (BidirectionalSequenceRNN.isTimeMajor self) self

end DividingOperation

/-- A convolution of a filter of one tap, with the scheme of its padding and the
width of its stride. -/
def oneTap (scheme strideWidth : UInt8) : OperationsBase :=
  sampleOperation .conv2d [[1, 2, 2, 1], [1, 1, 1, 1], [1]]
    [(.int32, scheme), (.int32, strideWidth), (.int32, 1), (.int32, 0)]

end NnHal
