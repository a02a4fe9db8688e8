import NnHal.Reshaping

/-!
# Recurrent layers

The four recurrent classes bind their outputs themselves.  The two sequence
classes unroll the layer: the input is split along time, each step feeds its
output to the next one, and the outputs are joined again.  The number of steps
is a dimension of the input.
-/

namespace NnHal

open Command

variable {self : OperationsBase}

/-- `x * W`, and `hidden * R + bias`. -/
def rnnProducts (x : Output) (W R bias hidden : Node) : Gen (Node × Node) := do
  let input_W ← makeShared (.matMul false true) [x, W]
  let Ht_R ← makeShared (.matMul false true) [hidden, R]
  let add ← makeShared .add [Ht_R, bias]
  pure (input_W, add)

/-- `activation(x * W + hidden * R + bias)` from the two parts. -/
def rnnOutput (input_W add : Node) (activationFn : Int) : Gen Node := do
  let i_t ← makeShared .add [input_W, add]
  applyActivation i_t (toInt32 activationFn)

/-- A step of a layer without auxiliary input. -/
def rnnStep (x : Output) (W R bias hidden : Node) (activationFn : Int) : Gen Node := do
  let (input_W, add) ← rnnProducts x W R bias hidden
  rnnOutput input_W add activationFn

theorem quiet_rnnProducts {x : Output} {W R bias hidden : Node} :
    Quiet Cmd.access (rnnProducts x W R bias hidden) :=
  quiet_make.bind fun _ => quiet_make.bind fun _ => quiet_make.bind fun _ => quiet_pure _

theorem quiet_rnnOutput {input_W add : Node} {activationFn : Int} :
    Quiet Cmd.access (rnnOutput input_W add activationFn) :=
  quiet_make.bind fun _ => quiet_applyActivation

theorem quiet_rnnStep {x : Output} {W R bias hidden : Node} {activationFn : Int} :
    Quiet Cmd.access (rnnStep x W R bias hidden activationFn) :=
  quiet_rnnProducts.bind fun _ => quiet_rnnOutput

theorem yields_dimAt (dims : List Nat) (i : Nat) :
    Yields (fun d => d = dims.getD i 0) (dimAt dims i) := by
  unfold dimAt
  cases hi : dims[i]? with
  | none => exact (yields_true _).bind fun _ _ => by simp [hi, Yields]
  | some d => simp [hi, Yields]

/-! ## One step -/

def RNN.createNode (self : OperationsBase) : Gen Unit := do
  let input ← self.getInputNode 0
  let W ← self.getInputNode 1
  let R ← self.getInputNode 2
  let bias ← self.getInputNode 3
  let initial_hidden_state ← self.getInputNode 4
  let activationFn ← self.parseOperationInput .uint32 5
  let outputNode ← rnnStep input W R bias initial_hidden_state activationFn
  -- the first output is a placeholder: zeros multiplied with the second one
  let type ← issue (.getElementType outputNode)
  let shape ← issue (.getShape outputNode)
  let zeros ← createConstNode type shape [.int 0]
  let outNode ← makeShared .multiply [zeros, outputNode]
  self.setOperationOutput (self.outputIndex 0) (some outNode)
  self.setOperationOutput (self.outputIndex 1) (some outputNode)

def RNN.uses (self : OperationsBase) : List Use :=
  [.node 0, .node 1, .node 2, .node 3, .node 4, .scalar .uint32 5,
    .set (self.outputIndex 0), .set (self.outputIndex 1)]

theorem RNN.createNode_uses : Uses self (RNN.createNode self) (RNN.uses self) := by
  refine .node fun _ => .node fun _ => .node fun _ => .node fun _ => .node fun _ => ?_
  refine .scalar fun _ => .step quiet_rnnStep fun _ => ?_
  refine .step quiet_getElementType fun _ => .step quiet_getShape fun _ => ?_
  exact .const fun _ => .make fun _ => .set fun _ => .bound

/-! ## Sequences -/

/-- The number of time steps: the first dimension of the input, or the second
one where the batch comes first. -/
def OperationsBase.maxTime (self : OperationsBase) (isTimeMajor : Bool) : Gen Nat :=
  dimAt (self.getInputOperandDimensions 0) (if isTimeMajor then 0 else 1)

/-- The outputs of the steps joined along time again. -/
def joinSteps (inputNode : Node) (maxTime : Nat) (output_at_each_timestep : List Node) :
    Gen Node := do
  let outputNode ← makeShared (.concat 0) (output_at_each_timestep.map (·, 0))
  let rows ← shapeAt outputNode 0
  let output_batch ← divInt rows maxTime
  let width ← shapeAt outputNode 1
  let shape ← issue (.getShape inputNode)
  let shapeNode ← createConstNode .i32 [shape.length] [.int maxTime, .int output_batch, .int width]
  makeShared (.reshape false) [outputNode, shapeNode]

theorem quiet_joinSteps {inputNode : Node} {maxTime : Nat} {outputs : List Node} :
    Quiet Cmd.access (joinSteps inputNode maxTime outputs) := by
  refine quiet_make.bind fun _ => quiet_shapeAt.bind fun _ => quiet_divInt.bind fun _ => ?_
  refine quiet_shapeAt.bind fun _ => quiet_getShape.bind fun _ => quiet_const.bind fun _ => ?_
  exact quiet_make

/-- The loop over the time steps: the output of a step is the hidden state of
the next one. -/
def UnidirectionalSequenceRNN.steps (inputSplit W R bias : Node) (activationFn : Int) :
    List Nat → Node → Gen (List Node)
  | [], _ => pure []
  | i :: times, hidden => do
      let dims ← createConstNode .i32 [0] []
      let x ← makeShared .squeeze [inputSplit.output i, dims]
      let outNode ← rnnStep x W R bias hidden activationFn
      let rest ← UnidirectionalSequenceRNN.steps inputSplit W R bias activationFn times outNode
      pure (outNode :: rest)

/-- `UnidirectionalSequenceRNN::createNode`.  Without a time step there is no
last output, and the second output is bound to the null pointer. -/
def UnidirectionalSequenceRNN.createNode (self : OperationsBase) : Gen Unit := do
  let inputNode ← self.getInputNode 0
  let W ← self.getInputNode 1
  let R ← self.getInputNode 2
  let bias ← self.getInputNode 3
  let initial_hidden_state ← self.getInputNode 4
  let activationFn ← self.parseOperationInput .uint32 5
  let timeMajor ← self.parseOperationInput .uint32 6
  let isTimeMajor : Bool := timeMajor ≠ 0
  let inputNode ← transposeUnless isTimeMajor .btsTbs inputNode
  let maxTime ← self.maxTime isTimeMajor
  let axisNode ← createConstNode .i32 [] [.int 0]
  let inputSplit ← makeShared (.split maxTime) [inputNode, axisNode]
  let output_at_each_timestep ← UnidirectionalSequenceRNN.steps inputSplit W R bias activationFn
    (List.range maxTime) initial_hidden_state
  let outputNode ← joinSteps inputNode maxTime output_at_each_timestep
  let outputNode ← transposeUnless isTimeMajor .btsTbs outputNode
  self.setOperationOutput (self.outputIndex 0) (some outputNode)
  if self.outputsSize = 2 then
    self.setOperationOutput (self.outputIndex 1) output_at_each_timestep.getLast?
  else pure ()

/-- The scalar that says whether time comes first. -/
def UnidirectionalSequenceRNN.isTimeMajor (self : OperationsBase) : Bool :=
  self.sModelInfo.scalarValue .uint32 (self.inputIndex 6) ≠ 0

/-- The number of steps the loop makes. -/
def OperationsBase.timeSteps (self : OperationsBase) (isTimeMajor : Bool) : Nat :=
  (self.getInputOperandDimensions 0).getD (if isTimeMajor then 0 else 1) 0

def UnidirectionalSequenceRNN.uses (self : OperationsBase) : List Use :=
  [.node 0, .node 1, .node 2, .node 3, .node 4, .scalar .uint32 5, .scalar .uint32 6,
    .set (self.outputIndex 0)] ++
    if self.outputsSize = 2 then
      [.set (self.outputIndex 1)
        (self.timeSteps (UnidirectionalSequenceRNN.isTimeMajor self) ≠ 0)]
    else []

theorem yields_maxTime (isTimeMajor : Bool) :
    Yields (fun d => d = self.timeSteps isTimeMajor) (self.maxTime isTimeMajor) :=
  yields_dimAt _ _

theorem getLast?_isSome_of_length {α : Type} {l : List α} {n : Nat} (h : l.length = n) :
    l.getLast?.isSome = decide (n ≠ 0) := by
  subst h
  cases l <;> simp

namespace UnidirectionalSequenceRNN

theorem steps_quiet {inputSplit W R bias hidden : Node} {activationFn : Int} (times : List Nat) :
    Quiet Cmd.access (steps inputSplit W R bias activationFn times hidden) := by
  induction times generalizing hidden with
  | nil => exact quiet_pure _
  | cons i times ih =>
      refine quiet_const.bind fun _ => quiet_make.bind fun _ => quiet_rnnStep.bind fun _ => ?_
      exact ih.bind fun _ => quiet_pure _

theorem steps_length {inputSplit W R bias hidden : Node} {activationFn : Int} (times : List Nat) :
    Yields (fun l => l.length = times.length)
      (steps inputSplit W R bias activationFn times hidden) := by
  induction times generalizing hidden with
  | nil => simp [steps, Yields]
  | cons i times ih =>
      refine (yields_true _).bind fun _ _ => (yields_true _).bind fun _ _ => ?_
      apply (yields_true _).bind
      intro _ _
      apply ih.bind
      intro rest hrest
      simp [Yields, hrest]

theorem createNode_uses : Uses self (createNode self) (uses self) := by
  refine .node fun _ => .node fun _ => .node fun _ => .node fun _ => .node fun _ => ?_
  refine .scalar fun _ => .scalarValue (.step quiet_transposeUnless fun _ => ?_)
  refine .step_yields quiet_dimAt (yields_maxTime _) fun maxTime htime => ?_
  refine .const fun _ => .make fun _ => ?_
  refine .step_yields (steps_quiet _) (steps_length _) fun outputs hlength => ?_
  refine .step quiet_joinSteps fun _ => .step quiet_transposeUnless fun _ => ?_
  refine .set fun _ => .ite (fun _ => ?_) fun _ => .pure _
  have hlast : outputs.getLast?.isSome = decide (self.timeSteps (isTimeMajor self) ≠ 0) := by
    rw [List.length_range] at hlength
    exact getLast?_isSome_of_length (hlength.trans htime)
  rw [← hlast]
  exact .assigned

end UnidirectionalSequenceRNN

/-! ## Both directions -/

/-- What the auxiliary inputs 9 to 11 are for. -/
inductive BidirectionalSequenceRNN.Aux
  /-- not used: their parameters are removed -/
  | absent
  /-- input 9 is the input of the backward direction -/
  | parallel
  /-- input 9 is added to the input of both directions, with weights of its
  own -/
  | weighted
  deriving DecidableEq, Repr

/-- `BidirectionalSequenceRNN::isValidInputTensor` looks at the first
dimension only. -/
def BidirectionalSequenceRNN.isValidInputTensor (self : OperationsBase) (inputIndex : Nat) :
    Bool :=
  ¬ self.isZeroSizedInput inputIndex

def BidirectionalSequenceRNN.auxInputs (self : OperationsBase) :
    BidirectionalSequenceRNN.Aux :=
  let v := BidirectionalSequenceRNN.isValidInputTensor self
  if v 9 ∧ ¬ v 10 ∧ ¬ v 11 then .parallel
  else if ¬ v 9 ∨ ¬ v 10 ∨ ¬ v 11 then .absent
  else .weighted

/-- What a forward step leaves: its squeezed inputs and its output. -/
structure BidirectionalSequenceRNN.Step where
  input : Output
  auxInput : Output
  output : Node

/-- The auxiliary input of a step, squeezed and weighted, added to the rest. -/
def BidirectionalSequenceRNN.addAux (aux : BidirectionalSequenceRNN.Aux)
    (auxInput : Output) (dims auxWeights add : Node) : Gen (Output × Node) :=
  if aux = .weighted then do
    let auxInput ← makeShared .squeeze [auxInput, dims]
    let aux_mul ← makeShared (.matMul false true) [auxInput, auxWeights]
    let aux_add ← makeShared .add [aux_mul, add]
    pure ((auxInput, 0), aux_add)
  else pure (auxInput, add)

/-- The forward loop over the time steps. -/
def BidirectionalSequenceRNN.forward (aux : BidirectionalSequenceRNN.Aux)
    (inputSplit auxInputSplit W R bias auxWeights : Node) (activationFn : Int) :
    List Nat → Node → Gen (List BidirectionalSequenceRNN.Step)
  | [], _ => pure []
  | i :: times, hidden => do
      let dims ← createConstNode .i32 [0] []
      let input ← makeShared .squeeze [inputSplit.output i, dims]
      let (input_W, add) ← rnnProducts input W R bias hidden
      let (auxInput, add) ← BidirectionalSequenceRNN.addAux aux (auxInputSplit.output i) dims
        auxWeights add
      let output ← rnnOutput input_W add activationFn
      let rest ← BidirectionalSequenceRNN.forward aux inputSplit auxInputSplit W R bias
        auxWeights activationFn times output
      pure (⟨input, auxInput, output⟩ :: rest)

/-- The backward loop, over the steps of the forward one from the last to the
first. -/
def BidirectionalSequenceRNN.backward (aux : BidirectionalSequenceRNN.Aux)
    (W R bias auxWeights : Node) (activationFn : Int) :
    List BidirectionalSequenceRNN.Step → Node → Gen (List Node)
  | [], _ => pure []
  | step :: steps, hidden => do
      let dims ← createConstNode .i32 [0] []
      let curStepInput ←
        makeShared .squeeze [if aux = .parallel then step.auxInput else step.input, dims]
      let (input_W, add) ← rnnProducts curStepInput W R bias hidden
      let (_, add) ← BidirectionalSequenceRNN.addAux aux step.auxInput dims auxWeights add
      let output ← rnnOutput input_W add activationFn
      let rest ← BidirectionalSequenceRNN.backward aux W R bias auxWeights activationFn steps
        output
      pure (output :: rest)

/-- The steps the backward loop visits.  Its counter is an `int`, which starts
below zero when `maxTime - 1` does not fit. -/
def BidirectionalSequenceRNN.backwardSteps (maxTime : Nat)
    (steps : List BidirectionalSequenceRNN.Step) : List BidirectionalSequenceRNN.Step :=
  if maxTime ≤ 2 ^ 31 then steps.reverse else []

/-- The outputs of the backward loop in the order of time; the entries it does
not visit stay null. -/
def BidirectionalSequenceRNN.backwardOutputs (maxTime : Nat) (outputs : List Node) :
    List NodePtr :=
  List.replicate (maxTime - outputs.length) none ++ outputs.reverse.map some

/-- The auxiliary parameters are removed where they are not used. -/
def BidirectionalSequenceRNN.removeAux (self : OperationsBase) : Gen Unit :=
  if BidirectionalSequenceRNN.auxInputs self = .absent then do
    self.removeInputNode 9
    self.removeInputNode 10
    self.removeInputNode 11
  else pure ()

/-- The outputs of the operation: both directions, merged or apart, and the
last state of each where there are more than two. -/
def BidirectionalSequenceRNN.setOutputs (self : OperationsBase) (mergeOutputs : Bool)
    (fwOutputNode bwOutputNode : Node) (fw_op_lastTimestep bw_op_lastTimestep : NodePtr) :
    Gen Unit := do
  self.setOperationOutput (self.outputIndex 0) (some fwOutputNode)
  (if mergeOutputs then pure ()
    else self.setOperationOutput (self.outputIndex 1) (some bwOutputNode))
  if self.outputsSize > 2 then do
    let first := if mergeOutputs then 1 else 2
    self.setOperationOutput (self.outputIndex first) fw_op_lastTimestep
    self.setOperationOutput (self.outputIndex (first + 1)) bw_op_lastTimestep
  else pure ()

def BidirectionalSequenceRNN.createNode (self : OperationsBase) : Gen Unit := do
  let input ← self.getInputNode 0
  let fwWeights ← self.getInputNode 1
  let fwRecurrentWeights ← self.getInputNode 2
  let fwBias ← self.getInputNode 3
  let fwHiddenState ← self.getInputNode 4
  let bwWeights ← self.getInputNode 5
  let bwRecurrentWeights ← self.getInputNode 6
  let bwBias ← self.getInputNode 7
  let bwHiddenState ← self.getInputNode 8
  let auxInput ← self.getInputNode 9
  let fwAuxWeights ← self.getInputNode 10
  let bwAuxWeights ← self.getInputNode 11
  let aux := BidirectionalSequenceRNN.auxInputs self
  BidirectionalSequenceRNN.removeAux self
  let activationFn ← self.parseOperationInput .uint32 12
  let timeMajor ← self.parseOperationInput .uint8 13
  let merge ← self.parseOperationInput .uint8 14
  let isTimeMajor : Bool := timeMajor ≠ 0
  let mergeOutputs : Bool := merge ≠ 0
  let maxTime ← self.maxTime isTimeMajor
  let input ← transposeUnless isTimeMajor .btsTbs input
  let auxInput ← transposeUnless (isTimeMajor || aux = .absent) .btsTbs auxInput
  let axisNode ← createConstNode .i32 [] [.int 0]
  let inputSplit ← makeShared (.split maxTime) [input, axisNode]
  let auxInputSplit ←
    (if aux = .absent then pure inputSplit else makeShared (.split maxTime) [auxInput, axisNode])
  let steps ← BidirectionalSequenceRNN.forward aux inputSplit auxInputSplit fwWeights
    fwRecurrentWeights fwBias fwAuxWeights activationFn (List.range maxTime) fwHiddenState
  let outputs ← BidirectionalSequenceRNN.backward aux bwWeights bwRecurrentWeights bwBias
    bwAuxWeights activationFn (BidirectionalSequenceRNN.backwardSteps maxTime steps) bwHiddenState
  let fwOutputNode ← joinSteps input maxTime (steps.map (·.output))
  let bwOutputs ← (BidirectionalSequenceRNN.backwardOutputs maxTime outputs).mapM deref
  let bwOutputNode ← joinSteps input maxTime bwOutputs
  let fwOutputNode ← transposeUnless isTimeMajor .btsTbs fwOutputNode
  let bwOutputNode ← transposeUnless isTimeMajor .btsTbs bwOutputNode
  let fwOutputNode ←
    (if mergeOutputs then makeShared (.concat 2) [fwOutputNode, bwOutputNode]
    else pure fwOutputNode)
  BidirectionalSequenceRNN.setOutputs self mergeOutputs fwOutputNode bwOutputNode
    (steps.map (·.output)).getLast? outputs.getLast?

namespace BidirectionalSequenceRNN

def isTimeMajor (self : OperationsBase) : Bool :=
  self.sModelInfo.scalarValue .uint8 (self.inputIndex 13) ≠ 0

def mergeOutputs (self : OperationsBase) : Bool :=
  self.sModelInfo.scalarValue .uint8 (self.inputIndex 14) ≠ 0

/-- The first output that is a last state. -/
def firstState (self : OperationsBase) : Nat := if mergeOutputs self then 1 else 2

/-- The forward loop has a last step. -/
def hasForwardState (self : OperationsBase) : Bool := self.timeSteps (isTimeMajor self) ≠ 0

/-- The backward loop has a last step. -/
def hasBackwardState (self : OperationsBase) : Bool :=
  self.timeSteps (isTimeMajor self) ≠ 0 ∧ self.timeSteps (isTimeMajor self) ≤ 2 ^ 31

def outputUses (self : OperationsBase) : List Use :=
  .set (self.outputIndex 0) ::
    ((if mergeOutputs self then [] else [.set (self.outputIndex 1)]) ++
      if self.outputsSize > 2 then
        [.set (self.outputIndex (firstState self)) (hasForwardState self),
          .set (self.outputIndex (firstState self + 1)) (hasBackwardState self)]
      else [])

def removeUses (self : OperationsBase) : List Use :=
  if auxInputs self = .absent then [.remove 9, .remove 10, .remove 11] else []

def uses (self : OperationsBase) : List Use :=
  .node 0 :: .node 1 :: .node 2 :: .node 3 :: .node 4 :: .node 5 :: .node 6 :: .node 7 ::
    .node 8 :: .node 9 :: .node 10 :: .node 11 :: (removeUses self ++
      .scalar .uint32 12 :: .scalar .uint8 13 :: .scalar .uint8 14 :: outputUses self)

theorem removeAux_uses : Uses self (removeAux self) (removeUses self) :=
  .ite (fun _ => .remove fun _ => .remove fun _ => .removed) fun _ => .pure _

theorem quiet_addAux {aux : Aux} {auxInput : Output} {dims auxWeights add : Node} :
    Quiet Cmd.access (addAux aux auxInput dims auxWeights add) :=
  quiet_ite (quiet_make.bind fun _ => quiet_make.bind fun _ => quiet_make.bind fun _ =>
    quiet_pure _) (quiet_pure _)

theorem quiet_forward {aux : Aux} {inputSplit auxInputSplit W R bias auxWeights hidden : Node}
    {activationFn : Int} (times : List Nat) :
    Quiet Cmd.access
      (forward aux inputSplit auxInputSplit W R bias auxWeights activationFn times hidden) := by
  induction times generalizing hidden with
  | nil => exact quiet_pure _
  | cons i times ih =>
      refine quiet_const.bind fun _ => quiet_make.bind fun _ => quiet_rnnProducts.bind fun _ => ?_
      refine quiet_addAux.bind fun _ => quiet_rnnOutput.bind fun _ => ?_
      exact ih.bind fun _ => quiet_pure _

theorem quiet_backward {aux : Aux} {W R bias auxWeights hidden : Node} {activationFn : Int}
    (steps : List Step) :
    Quiet Cmd.access (backward aux W R bias auxWeights activationFn steps hidden) := by
  induction steps generalizing hidden with
  | nil => exact quiet_pure _
  | cons step steps ih =>
      refine quiet_const.bind fun _ => quiet_make.bind fun _ => quiet_rnnProducts.bind fun _ => ?_
      refine quiet_addAux.bind fun _ => quiet_rnnOutput.bind fun _ => ?_
      exact ih.bind fun _ => quiet_pure _

theorem forward_length {aux : Aux}
    {inputSplit auxInputSplit W R bias auxWeights hidden : Node} {activationFn : Int}
    (times : List Nat) :
    Yields (fun l => l.length = times.length)
      (forward aux inputSplit auxInputSplit W R bias auxWeights activationFn times hidden) := by
  induction times generalizing hidden with
  | nil => simp [forward, Yields]
  | cons i times ih =>
      refine (yields_true _).bind fun _ _ => (yields_true _).bind fun _ _ => ?_
      refine (yields_true _).bind fun _ _ => (yields_true _).bind fun _ _ => ?_
      apply (yields_true _).bind
      intro _ _
      apply ih.bind
      intro rest hrest
      simp [Yields, hrest]

theorem backward_length {aux : Aux} {W R bias auxWeights hidden : Node} {activationFn : Int}
    (steps : List Step) :
    Yields (fun l => l.length = steps.length)
      (backward aux W R bias auxWeights activationFn steps hidden) := by
  induction steps generalizing hidden with
  | nil => simp [backward, Yields]
  | cons step steps ih =>
      refine (yields_true _).bind fun _ _ => (yields_true _).bind fun _ _ => ?_
      refine (yields_true _).bind fun _ _ => (yields_true _).bind fun _ _ => ?_
      apply (yields_true _).bind
      intro _ _
      apply ih.bind
      intro rest hrest
      simp [Yields, hrest]

theorem quiet_mapM_deref (nodes : List NodePtr) : Quiet Cmd.access (nodes.mapM deref) := by
  induction nodes with
  | nil => exact quiet_pure _
  | cons node nodes ih =>
      rw [List.mapM_cons]
      exact quiet_deref.bind fun _ => ih.bind fun _ => quiet_pure _

theorem setOutputs_uses {fwOutputNode bwOutputNode : Node} {fwLast bwLast : NodePtr}
    (hfw : fwLast.isSome = hasForwardState self)
    (hbw : bwLast.isSome = hasBackwardState self) :
    Uses self (setOutputs self (mergeOutputs self) fwOutputNode bwOutputNode fwLast bwLast)
      (outputUses self) := by
  unfold outputUses
  rw [← hfw, ← hbw]
  refine .set fun _ => .bind (.ite (fun _ => .pure _) fun _ => .bound) fun _ => ?_
  exact .ite (fun _ => .set fun _ => .assigned) fun _ => .pure _

theorem createNode_uses : Uses self (createNode self) (uses self) := by
  refine .node fun _ => .node fun _ => .node fun _ => .node fun _ => .node fun _ => ?_
  refine .node fun _ => .node fun _ => .node fun _ => .node fun _ => ?_
  refine .node fun _ => .node fun _ => .node fun _ => removeAux_uses.bind fun _ => ?_
  refine .scalar fun _ => .scalarValue ?_
  refine .scalarValue ?_
  refine .step_yields quiet_dimAt (yields_maxTime _) fun maxTime htime => ?_
  refine .step quiet_transposeUnless fun _ => .step quiet_transposeUnless fun _ => ?_
  refine .const fun _ => .make fun _ => .step (quiet_ite (quiet_pure _) quiet_make) fun _ => ?_
  refine .step_yields (quiet_forward _) (forward_length _) fun steps hsteps => ?_
  refine .step_yields (quiet_backward _) (backward_length _) fun outputs houtputs => ?_
  refine .step quiet_joinSteps fun _ => .step (quiet_mapM_deref _) fun _ => ?_
  refine .step quiet_joinSteps fun _ => .step quiet_transposeUnless fun _ => ?_
  refine .step quiet_transposeUnless fun _ => ?_
  refine .step (quiet_ite quiet_make (quiet_pure _)) fun _ => setOutputs_uses ?_ ?_
  all_goals
    rw [List.length_range] at hsteps
    change maxTime = self.timeSteps (isTimeMajor self) at htime
  · exact getLast?_isSome_of_length ((List.length_map _).trans (hsteps.trans htime))
  · have hlength : outputs.length = if maxTime ≤ 2 ^ 31 then maxTime else 0 := by
      rw [houtputs]
      unfold backwardSteps
      split <;> simp [hsteps]
    rw [getLast?_isSome_of_length hlength, htime]
    simp only [hasBackwardState, ne_eq, ite_eq_right_iff, Classical.not_imp, and_comm]

end BidirectionalSequenceRNN

end NnHal
