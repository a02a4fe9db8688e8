import NnHal.ConvolutionMeanings
import NnHal.Reading
import NnHal.RecurrentLayers

/-!
# The layer in one direction

`UNIDIRECTIONAL_SEQUENCE_RNN` runs a layer over a sequence.  What it binds are the
states of the recurrence, unless the inputs have one unit: `Squeeze` is not told the
axis of time and takes that unit away, too.
-/

namespace NnHal

open Command Tensors

section Fetch

variable {R : Type} [CommRing R] {M : Meaning R} {ng : Ngraph} {nodes : NgraphNodes}
variable {self : OperationsBase} {timeMajor : Bool} {times batch width : Nat} {x : Tensor R}

/-- The input is there, and its node denotes the tensor. -/
def OperationsBase.Supplies (self : OperationsBase) (ng : Ngraph) (M : Meaning R)
    (nodes : NgraphNodes) (T : ElementType) (index : Nat) (x : Tensor R) : Prop :=
  ∃ node, (exec (answer ng) (self.getInputNode index) nodes).outcome = .ok node ∧
    node.Carries ng M T x

/-- The scalar is there. -/
def OperationsBase.Passes (self : OperationsBase) (ng : Ngraph) (nodes : NgraphNodes) (T : CType)
    (index : Nat) (value : Int) : Prop :=
  (exec (answer ng) (self.parseOperationInput T index) nodes).outcome = .ok value

theorem OperationsBase.Supplies.gives {T : ElementType} {index : Nat} {y : Tensor R}
    (h : self.Supplies ng M nodes T index y) :
    Gives (answer ng) nodes (self.getInputNode index) fun node => node.Carries ng M T y := by
  rcases h with ⟨node, hrun, hnode⟩
  refine (gives_outcome hrun).mono ?_
  intro _ heq
  subst heq
  exact hnode

/-- The number of steps is the size of the axis of time. -/
theorem gives_maxTime (hdims : self.getInputOperandDimensions 0 =
    Tensor.sequenceShape timeMajor times batch width) :
    Gives (answer ng) nodes (self.maxTime timeMajor) (· = times) := by
  unfold OperationsBase.maxTime dimAt
  rw [hdims]
  cases timeMajor <;> exact gives_pure rfl

/-- The input with time first. -/
theorem gives_timeFirst (ht : M.Transposes) (hng : ng.ChecksShapes M) {T : ElementType}
    {node : Node} (hnode : node.Carries ng M T x)
    (hx : x.shape = Tensor.sequenceShape timeMajor times batch width) :
    Gives (answer ng) nodes (transposeUnless timeMajor .btsTbs node) fun r =>
      ∃ y, r.Carries ng M T y ∧ y.shape = [times, batch, width] ∧
        y.atTime true = x.atTime timeMajor := by
  have hrank : x.shape.length = 3 := by
    rw [hx]
    cases timeMajor <;> rfl
  refine (gives_transposeTime ht hng hnode hrank).mono fun r hr => ⟨_, hr, ?_⟩
  cases timeMajor
  · have hmoved := fun t => Tensor.atTime_transpose hx t
    exact ⟨(hmoved 0).1, funext fun t => (hmoved t).2⟩
  · exact ⟨hx, rfl⟩

end Fetch

section Sequence

variable {R : Type} [CommRing R] [LinearOrder R]

/-- The tensor holds the states of the layer, moment by moment. -/
structure Layer.Sequence (l : Layer R) (timeMajor : Bool) (times : Nat) (x h y : Tensor R) :
    Prop where
  shape : y.shape = Tensor.sequenceShape timeMajor times l.batch l.units
  states : ∀ t < times, y.atTime timeMajor t = l.state (x.atTime timeMajor) h (t + 1)

/-- The states after each of the inputs. -/
def Layer.states (l : Layer R) (x h : Tensor R) (timeMajor : Bool) (times : Nat) :
    List (Tensor R) :=
  (List.range times).map fun t => l.state (x.atTime timeMajor) h (t + 1)

namespace Layer

variable {l : Layer R} {timeMajor : Bool} {times : Nat} {x h y : Tensor R}

theorem length_states : (l.states x h timeMajor times).length = times := by
  rw [states, List.length_map, List.length_range]

theorem shape_states (hh : h.shape = [l.batch, l.units]) :
    ∀ y ∈ l.states x h timeMajor times, y.shape = [l.batch, l.units] := by
  intro y hy
  obtain ⟨t, -, rfl⟩ := List.mem_map.mp hy
  exact shape_state hh (t + 1)

theorem getLast_states (hpos : 0 < times) :
    (l.states x h timeMajor times).getLast? = some (l.state (x.atTime timeMajor) h times) := by
  obtain ⟨n, rfl⟩ := Nat.exists_eq_add_one_of_ne_zero hpos.ne'
  rw [states, List.range_succ, List.map_append, List.map_singleton, List.getLast?_concat]

/-- The joined states, with time where the layout has it. -/
theorem sequence_stack (hh : h.shape = [l.batch, l.units])
    (hy : y = if timeMajor then Tensor.stack [l.batch, l.units] (l.states x h timeMajor times)
      else (Tensor.stack [l.batch, l.units] (l.states x h timeMajor times)).transpose [1, 0, 2]) :
    l.Sequence timeMajor times x h y := by
  obtain ⟨hshape, hmoments⟩ := Tensor.moments_stack (shape_states hh) hy
  rw [length_states] at hshape
  refine ⟨hshape, fun t ht => ?_⟩
  rw [hmoments t (by rwa [length_states])]
  simp [states]

end Layer

namespace UnidirectionalSequenceRNN

variable {M : Meaning R} {ng : Ngraph} {nodes : NgraphNodes} {self : OperationsBase}
variable {l : Layer R} {timeMajor : Bool} {times : Nat} {x h : Tensor R}

/-- The inputs of the operation are those of a layer, a sequence and a state. -/
structure Inputs (ng : Ngraph) (M : Meaning R) (nodes : NgraphNodes) (base : OperationsBase)
    (l : Layer R) (timeMajor : Bool) (times : Nat) (x h : Tensor R) : Prop where
  input : base.Supplies ng M nodes l.elementType 0 x
  weights : base.Supplies ng M nodes l.elementType 1 l.weights
  recurrentWeights : base.Supplies ng M nodes l.elementType 2 l.recurrentWeights
  bias : base.Supplies ng M nodes l.elementType 3 l.bias
  hidden : base.Supplies ng M nodes l.elementType 4 h
  activationFn : ∃ code, base.Passes ng nodes .uint32 5 code ∧ toInt32 code = l.activationFn
  layout : ∃ flag, base.Passes ng nodes .uint32 6 flag ∧ timeMajor = decide (flag ≠ 0)
  dimensions : base.getInputOperandDimensions 0 = x.shape
  shape_input : x.shape = Tensor.sequenceShape timeMajor times l.batch l.inputSize
  shape_hidden : h.shape = [l.batch, l.units]
  times_pos : 0 < times
  /-- no operand is two outputs -/
  distinct : base.outputsSize = 2 → base.outputIndex 0 ≠ base.outputIndex 1

/-- The outputs are bound to the states of the layer. -/
structure BindsStates (M : Meaning R) (base : OperationsBase) (l : Layer R) (timeMajor : Bool)
    (times : Nat) (x h : Tensor R) (nodes : NgraphNodes) : Prop where
  output : ∃ out, nodes.mOutputAtOperandIndex (base.outputIndex 0) = some (out, 0) ∧
    l.Sequence timeMajor times x h (out.denote M 0)
  finalState : base.outputsSize = 2 →
    ∃ last, nodes.mOutputAtOperandIndex (base.outputIndex 1) = some (last, 0) ∧
      last.denote M 0 = l.state (x.atTime timeMajor) h times

/-- The graph is well formed, and its outputs are the states of the layer. -/
def Correct (ng : Ngraph) (M : Meaning R) (nodes : NgraphNodes) (self : OperationsBase)
    (l : Layer R) (timeMajor : Bool) (times : Nat) (x h : Tensor R) : Prop :=
  Leaves (answer ng) nodes (createNode self) fun _ => BindsStates M self l timeMajor times x h

/-- What follows the split of the input. -/
def unrolled (self : OperationsBase) (isTimeMajor : Bool) (maxTime : Nat)
    (inputNode W R bias initial_hidden_state inputSplit : Node) (activationFn : Int) :
    Gen Unit := do
  let output_at_each_timestep ← steps inputSplit W R bias activationFn (List.range maxTime)
    initial_hidden_state
  let outputNode ← joinSteps inputNode maxTime output_at_each_timestep
  let outputNode ← transposeUnless isTimeMajor .btsTbs outputNode
  self.setOperationOutput (self.outputIndex 0) (some outputNode)
  if self.outputsSize = 2 then
    self.setOperationOutput (self.outputIndex 1) output_at_each_timestep.getLast?
  else pure ()

omit [LinearOrder R] in
/-- A run reaches the loop with the nodes of the layer. -/
theorem Inputs.run (hM : M.Recurs) (ht : M.Transposes) (hng : ng.ChecksShapes M)
    (hin : Inputs ng M nodes self l timeMajor times x h) {P : Except Stop Unit → NgraphNodes → Prop}
    (hrest : ∀ inputNode W recurrent bias hidden inputSplit code y,
      l.Given ng M W recurrent bias code → hidden.Carries ng M l.elementType h →
      inputNode.Carries ng M l.elementType y → y.shape = [times, l.batch, l.inputSize] →
      y.atTime true = x.atTime timeMajor → l.Splits ng M inputSplit times y →
      P (exec (answer ng)
          (unrolled self timeMajor times inputNode W recurrent bias hidden inputSplit code)
          nodes).outcome
        (exec (answer ng)
          (unrolled self timeMajor times inputNode W recurrent bias hidden inputSplit code)
          nodes).state) :
    P (exec (answer ng) (createNode self) nodes).outcome
      (exec (answer ng) (createNode self) nodes).state := by
  rcases hin.activationFn with ⟨code, hcode, hactivation⟩
  rcases hin.layout with ⟨flag, hflag, rfl⟩
  unfold createNode
  apply hin.input.gives.run (P := P)
  intro input hinput
  apply hin.weights.gives.run (P := P)
  intro W hW
  apply hin.recurrentWeights.gives.run (P := P)
  intro recurrent hR
  apply hin.bias.gives.run (P := P)
  intro bias hbias
  apply hin.hidden.gives.run (P := P)
  intro hidden hhidden
  refine (gives_outcome hcode).run (P := P) ?_
  intro _ heq
  subst heq
  refine (gives_outcome hflag).run (P := P) ?_
  intro _ heq
  subst heq
  apply (gives_timeFirst ht hng hinput hin.shape_input).run (P := P)
  intro inputNode htime
  rcases htime with ⟨y, hnode, hshape, hmoments⟩
  refine (gives_maxTime (hin.dimensions.trans hin.shape_input)).run (P := P) ?_
  intro _ heq
  subst heq
  refine Gives.run (P := P) (Q := (· = timeAxis)) (gives_const hng rfl rfl) ?_
  intro _ heq
  subst heq
  apply (gives_split hM hng hin.times_pos hnode hshape).run (P := P)
  intro inputSplit hsplit
  exact hrest inputNode W recurrent bias hidden inputSplit _ y ⟨hW, hR, hbias, hactivation⟩ hhidden
    hnode hshape hmoments hsplit

/-- The steps of at least two units leave the states bound. -/
theorem leaves_unrolled (hM : M.Recurs) (hadd : M.AddsBias) (ht : M.Transposes)
    (hng : ng.ChecksShapes M) (hinfer : ng.Infers M) (hsize : l.inputSize ≠ 1)
    (hin : Inputs ng M nodes self l timeMajor times x h)
    {inputNode W recurrent bias hidden inputSplit : Node} {code : Int} {y : Tensor R}
    (hl : l.Given ng M W recurrent bias code) (hhidden : hidden.Carries ng M l.elementType h)
    (hnode : inputNode.Carries ng M l.elementType y)
    (hshape : y.shape = [times, l.batch, l.inputSize])
    (hmoments : y.atTime true = x.atTime timeMajor) (hsplit : l.Splits ng M inputSplit times y) :
    Leaves (answer ng) nodes
      (unrolled self timeMajor times inputNode W recurrent bias hidden inputSplit code)
      fun _ => BindsStates M self l timeMajor times x h := by
  unfold unrolled
  rw [List.range_eq_range']
  refine (gives_steps hM hadd ht hng hsize hl hsplit hin.shape_hidden times 0 (by omega)
    hhidden).bind_leaves fun outputs houtputs => ?_
  rw [hmoments, ← List.range_eq_range'] at houtputs
  have hstates : CarriesAll ng M l.elementType (l.states x h timeMajor times) outputs := houtputs
  have hrank : (inputNode.denote M 0).shape.length = 3 := by rw [hnode.tensor, hshape]; rfl
  refine (gives_joinSteps hM ht hng hinfer hrank hstates (Layer.shape_states hin.shape_hidden)
    Layer.length_states hin.times_pos).bind_leaves fun joined hjoined => ?_
  apply (gives_transposeTime ht hng hjoined rfl).bind_leaves
  intro out hout
  have hsequence := Layer.sequence_stack hin.shape_hidden hout.tensor
  apply (leaves_setOperationOutput _ _).bind
  intro _ s hs
  split
  · next hsize =>
    obtain ⟨last, hlast, hdenote⟩ := hstates.getLast? (Layer.getLast_states hin.times_pos)
    apply (leaves_setOperationOutput _ _).mono
    intro _ s' hs'
    refine ⟨⟨out, ?_, hsequence⟩, fun _ => ⟨last, ?_, hdenote.tensor⟩⟩
    · rw [hs', Function.update_of_ne (hin.distinct hsize), hs, Function.update_self]
      rfl
    · rw [hs', Function.update_self, hlast]
      rfl
  · next hsize =>
    refine ⟨(), rfl, ⟨out, ?_, hsequence⟩, fun h => absurd h hsize⟩
    have hstate : (exec (answer ng) (pure () : Gen Unit) s).state = s := rfl
    rw [hstate, hs, Function.update_self]
    rfl

/-- A run on inputs of more than one unit. -/
theorem leaves_createNode (hM : M.Recurs) (hadd : M.AddsBias) (ht : M.Transposes)
    (hng : ng.ChecksShapes M) (hinfer : ng.Infers M) (hsize : 1 < l.inputSize)
    (hin : Inputs ng M nodes self l timeMajor times x h) :
    Correct ng M nodes self l timeMajor times x h := by
  refine hin.run hM ht hng (P := fun outcome s => ∃ a, outcome = .ok a ∧
    BindsStates M self l timeMajor times x h s) ?_
  intro inputNode W recurrent bias hidden inputSplit code y hl hhidden hnode hshape hmoments hsplit
  exact leaves_unrolled hM hadd ht hng hinfer hsize.ne' hin hl hhidden hnode hshape hmoments hsplit

omit [LinearOrder R] in
/-- Inputs of one unit are refused. -/
theorem refuses_unrolled (hM : M.Recurs) (ht : M.Transposes) (hng : ng.ChecksShapes M)
    (hsize : l.inputSize = 1) {inputNode W recurrent bias hidden inputSplit : Node} {code : Int}
    (hW : W.Carries ng M l.elementType l.weights) (hpos : 0 < times)
    (hsplit : l.Splits ng M inputSplit times x) :
    (exec (answer ng)
      (unrolled self timeMajor times inputNode W recurrent bias hidden inputSplit code)
      nodes).outcome ≠ .ok () := by
  have hrefused : Ends (answer ng) nodes
      (unrolled self timeMajor times inputNode W recurrent bias hidden inputSplit code)
      fun _ _ => False := by
    obtain ⟨n, rfl⟩ := Nat.exists_eq_add_one_of_ne_zero hpos.ne'
    unfold unrolled
    rw [List.range_succ_eq_map]
    refine Returns.bind_ends (Q := fun _ => False) ?_ fun _ h => h.elim
    exact refuses_steps hM ht hng hsize hW hsplit hpos _
  exact fun hok => hrefused () hok

/-- **`UNIDIRECTIONAL_SEQUENCE_RNN`.**  For every layer and every sequence in either
layout, the graph is well formed and its outputs are the states
`h_t = act (x_t Wᵀ + h_(t-1) Rᵀ + b)` exactly when the inputs have more than one
unit. -/
theorem denotes_states_iff (hM : M.Recurs) (hadd : M.AddsBias) (ht : M.Transposes)
    (hng : ng.ChecksShapes M) (hinfer : ng.Infers M)
    (hin : Inputs ng M nodes self l timeMajor times x h) :
    Correct ng M nodes self l timeMajor times x h ↔ 1 < l.inputSize := by
  constructor
  · intro hcorrect
    by_contra hsmall
    have hpos := l.inputSize_pos
    have hsize : l.inputSize = 1 := by omega
    rcases hcorrect with ⟨_, hok, -⟩
    refine hin.run hM ht hng (P := fun outcome _ => outcome ≠ .ok ()) ?_ hok
    intro inputNode W recurrent bias hidden inputSplit code y hl _ _ _ _ hsplit
    exact refuses_unrolled hM ht hng hsize hl.weights hin.times_pos hsplit
  · exact fun hlarge => leaves_createNode hM hadd ht hng hinfer hlarge hin

end UnidirectionalSequenceRNN

end Sequence

/-! ### Two moments -/

/-- An operation like `sampleOperation`, with outputs. -/
def sampleSequence (type : OperationType) (tensors : List (List Nat))
    (scalars : List (OperandType × UInt8)) (outputs : Nat) : OperationsBase :=
  let sample := sampleOperation type tensors scalars
  let count := tensors.length + scalars.length
  { sample with
    sModelInfo :=
      { mModel :=
          { sample.sModelInfo.mModel with
            operands := sample.sModelInfo.mModel.operands ++ List.replicate outputs
              { type := .tensorFloat32, lifetime := .subgraphOutput }
            operations :=
              [{ type, inputs := List.range count, outputs := List.range' count outputs }]
            outputIndexes := List.range' count outputs } } }

/-- A sequence of two moments, for one unit with ReLU. -/
def sequenceTensors (inputSize : Nat) : List (List Nat) :=
  [[2, 1, inputSize], [1, inputSize], [1, 1], [1], [1, 1]]

def twoMoments (inputSize : Nat) : OperationsBase :=
  sampleSequence .unidirectionalSequenceRnn (sequenceTensors inputSize) [(.int32, 1), (.int32, 1)] 2

/-- Its layer. -/
def twoMomentsLayer (inputSize : Nat) (hpos : 0 < inputSize) : Layer Int where
  batch := 1
  inputSize := inputSize
  units := 1
  weights := sampleInputs (sequenceTensors inputSize) 1
  recurrentWeights := sampleInputs (sequenceTensors inputSize) 2
  bias := sampleInputs (sequenceTensors inputSize) 3
  elementType := .f32
  activationFn := 1
  isFloat := ElementType.isFloat_f32
  batch_pos := Nat.one_pos
  inputSize_pos := hpos
  units_pos := Nat.one_pos
  shape_weights := rfl
  shape_recurrentWeights := rfl
  shape_bias := rfl

theorem twoMoments_inputs (inputSize : Nat) (hpos : 0 < inputSize) :
    UnidirectionalSequenceRNN.Inputs
      (.fitting (unrolledReference (sampleInputs (sequenceTensors inputSize))))
      (unrolledReference (sampleInputs (sequenceTensors inputSize)))
      (sampleNodes (sequenceTensors inputSize)) (twoMoments inputSize)
      (twoMomentsLayer inputSize hpos) true 2 (sampleInputs (sequenceTensors inputSize) 0)
      (sampleInputs (sequenceTensors inputSize) 4) where
  input := ⟨.mk (.parameter 0 .f32 [2, 1, inputSize]) [], rfl, rfl, rfl⟩
  weights := ⟨.mk (.parameter 1 .f32 [1, inputSize]) [], rfl, rfl, rfl⟩
  recurrentWeights := ⟨.mk (.parameter 2 .f32 [1, 1]) [], rfl, rfl, rfl⟩
  bias := ⟨.mk (.parameter 3 .f32 [1]) [], rfl, rfl, rfl⟩
  hidden := ⟨.mk (.parameter 4 .f32 [1, 1]) [], rfl, rfl, rfl⟩
  activationFn := ⟨1, rfl, rfl⟩
  layout := ⟨1, rfl, rfl⟩
  dimensions := rfl
  shape_input := rfl
  shape_hidden := rfl
  times_pos := Nat.two_pos
  distinct _ heq := by
    have hindexes : (7 : Nat) = 8 := heq
    cases hindexes

/-- Inputs of two units go through. -/
theorem twoMoments_correct :
    UnidirectionalSequenceRNN.Correct
      (.fitting (unrolledReference (sampleInputs (sequenceTensors 2))))
      (unrolledReference (sampleInputs (sequenceTensors 2))) (sampleNodes (sequenceTensors 2))
      (twoMoments 2) (twoMomentsLayer 2 Nat.two_pos) true 2 (sampleInputs (sequenceTensors 2) 0)
      (sampleInputs (sequenceTensors 2) 4) :=
  (UnidirectionalSequenceRNN.denotes_states_iff unrolledReference_recurs unrolledReference_addsBias
    unrolledReference_transposes (Ngraph.fitting_checksShapes _) (Ngraph.fitting_infers _)
    (twoMoments_inputs 2 Nat.two_pos)).mpr Nat.one_lt_two

/-- Inputs of one unit are refused. -/
theorem twoMoments_refused :
    ¬ ∀ (M : Meaning Int) (ng : Ngraph) (nodes : NgraphNodes) (self : OperationsBase)
      (l : Layer Int) (timeMajor : Bool) (times : Nat) (x h : Tensor Int),
      M.Recurs → M.AddsBias → M.Transposes → ng.ChecksShapes M → ng.Infers M →
      UnidirectionalSequenceRNN.Inputs ng M nodes self l timeMajor times x h →
      UnidirectionalSequenceRNN.Correct ng M nodes self l timeMajor times x h := by
  intro hall
  have hng := Ngraph.fitting_checksShapes (unrolledReference (sampleInputs (sequenceTensors 1)))
  have hin := twoMoments_inputs 1 Nat.one_pos
  obtain ⟨_, hok, -⟩ := hall _ _ _ _ _ _ _ _ _ unrolledReference_recurs unrolledReference_addsBias
    unrolledReference_transposes hng (Ngraph.fitting_infers _) hin
  refine hin.run unrolledReference_recurs unrolledReference_transposes hng
    (P := fun outcome _ => outcome ≠ .ok ()) ?_ hok
  intro inputNode W recurrent bias hidden inputSplit code y hl _ _ _ _ hsplit
  exact UnidirectionalSequenceRNN.refuses_unrolled unrolledReference_recurs
    unrolledReference_transposes hng rfl hl.weights Nat.two_pos hsplit

end NnHal
