import NnHal.SequenceRNN

/-!
# A chain of single steps

`RNN` is one step of a layer.  Its output 0 is to be the hidden state, for the next
step to read, but is a placeholder: zeros times output 1.  A chain of such operations
forgets its state after the first one.
-/

namespace NnHal

open Command Tensors

section Chain

variable {R : Type} [CommRing R]

/-- A constant of zeros is built from one zero, and `Multiply` broadcasts. -/
structure Meaning.FillsZeros (M : Meaning R) : Prop where
  zeros : ∀ type shape, M (.constant type shape [.int 0]) [] 0 = Tensor.ofFn shape fun _ => 0
  multiply : ∀ x y, M .multiply [x, y] 0 = Tensor.broadcast (· * ·) x y

/-- ngraph accepts both. -/
structure Ngraph.ChecksZeros (ng : Ngraph) (M : Meaning R) : Prop where
  zeros : ∀ type shape, ng.accepts (.constant type shape [.int 0]) [] = true
  multiply : ∀ x y : Output, (x.type ng).isFloat = true → y.type ng = x.type ng →
    Broadcastable (x.tensor M).shape (y.tensor M).shape → ng.accepts .multiply [x, y] = true

/-- The state of a layer that is zero everywhere. -/
def Layer.zeros (l : Layer R) : Tensor R := Tensor.ofFn [l.batch, l.units] fun _ => 0

namespace RNN

/-- The inputs of the operation, but for the hidden state, are those of a step. -/
structure Inputs (ng : Ngraph) (M : Meaning R) (nodes : NgraphNodes) (base : OperationsBase)
    (l : Layer R) (x : Tensor R) : Prop where
  input : base.Supplies ng M nodes l.elementType 0 x
  weights : base.Supplies ng M nodes l.elementType 1 l.weights
  recurrentWeights : base.Supplies ng M nodes l.elementType 2 l.recurrentWeights
  bias : base.Supplies ng M nodes l.elementType 3 l.bias
  activationFn : ∃ code, base.Passes ng nodes .uint32 5 code ∧ toInt32 code = l.activationFn
  shape_input : x.shape = [l.batch, l.inputSize]
  /-- no operand is two outputs -/
  distinct : base.outputIndex 0 ≠ base.outputIndex 1

/-- The two outputs are bound to nodes of these tensors. -/
def Binds (ng : Ngraph) (M : Meaning R) (T : ElementType) (self : OperationsBase) (x y : Tensor R)
    (nodes : NgraphNodes) : Prop :=
  ∃ first second, nodes.mOutputAtOperandIndex (self.outputIndex 0) = some (first, 0) ∧
    nodes.mOutputAtOperandIndex (self.outputIndex 1) = some (second, 0) ∧
    first.Carries ng M T x ∧ second.Carries ng M T y

variable {M : Meaning R} {ng : Ngraph} {nodes : NgraphNodes} {self : OperationsBase}
variable [LinearOrder R] {l : Layer R} {x h : Tensor R}

/-- **One step.**  Output 1 is the next state, output 0 is zero. -/
theorem leaves_createNode (hM : M.Recurs) (hadd : M.AddsBias) (hzeros : M.FillsZeros)
    (hng : ng.ChecksShapes M) (hng' : ng.ChecksZeros M) (hinfer : ng.Infers M)
    (hin : Inputs ng M nodes self l x)
    (hhidden : self.Supplies ng M nodes l.elementType 4 h) (hh : h.shape = [l.batch, l.units]) :
    Leaves (answer ng) nodes (createNode self) fun _ =>
      Binds ng M l.elementType self l.zeros (l.step x h) := by
  rcases hin.activationFn with ⟨code, hcode, hactivation⟩
  unfold createNode
  apply hin.input.gives.bind_leaves
  intro input hinput
  apply hin.weights.gives.bind_leaves
  intro W hW
  apply hin.recurrentWeights.gives.bind_leaves
  intro recurrent hR
  apply hin.bias.gives.bind_leaves
  intro bias hbias
  apply hhidden.gives.bind_leaves
  intro hidden hnode
  refine (gives_outcome hcode).bind_leaves ?_
  intro _ heq
  subst heq
  have hfeeds : l.Feeds ng M (input, 0) x := ⟨hin.shape_input, .inl hinput.tensor, hinput.type⟩
  refine (gives_rnnStep hM hadd hng hfeeds ⟨hW, hR, hbias, hactivation⟩ hnode hh).bind_leaves
    fun outputNode hout => ?_
  refine Gives.bind_leaves (Q := (· = ng.getElementType outputNode)) (gives_perform rfl rfl) ?_
  intro _ heq
  subst heq
  refine Gives.bind_leaves (Q := (· = ng.getShape outputNode)) (gives_perform rfl rfl) ?_
  intro _ heq
  subst heq
  have hshape : ng.getShape outputNode = [l.batch, l.units] := by
    rw [hinfer, hout.tensor, Layer.shape_step]
  have hplaceholder : Gives (answer ng) nodes
      (createConstNode (ng.getElementType outputNode) (ng.getShape outputNode) [.int 0])
      fun node => node.Carries ng M l.elementType l.zeros := by
    refine gives_make (hng'.zeros _ _) ⟨?_, ?_⟩
    · rw [Node.denote, Node.denoteAll, hzeros.zeros, hshape]
      rfl
    · rw [hng.types.constant, hout.type]
  apply hplaceholder.bind_leaves
  intro zeros hzero
  have hfloat : (Output.type ng (zeros, 0)).isFloat = true := by
    rw [Output.type, hzero.type, l.isFloat]
  have htypes : Output.type ng (outputNode, 0) = Output.type ng (zeros, 0) := by
    rw [Output.type, Output.type, hout.type, hzero.type]
  have hsame : (l.step x h).shape = l.zeros.shape := rfl
  have hfits : Broadcastable (Output.tensor M (zeros, 0)).shape
      (Output.tensor M (outputNode, 0)).shape := by
    rw [Output.tensor, Output.tensor, hzero.tensor, hout.tensor, hsame]
    exact broadcastable_self _
  have hproduct : Tensor.broadcast (· * ·) l.zeros (l.step x h) = l.zeros := by
    apply Tensor.ext_inside (Tensor.shape_broadcast_same hsame)
    intro index hin
    rw [Tensor.shape_broadcast_same hsame] at hin
    have hentry : l.zeros.get index = 0 := Tensor.get_ofFn hin
    rw [Tensor.get_broadcast_same hsame hin, hentry, zero_mul]
  have hmultiply : Gives (answer ng) nodes (makeShared .multiply [zeros, outputNode])
      fun node => node.Carries ng M l.elementType l.zeros := by
    refine gives_make (hng'.multiply _ _ hfloat htypes hfits) ⟨?_, ?_⟩
    · rw [Node.denote_mk_two, hzeros.multiply, hzero.tensor, hout.tensor, hproduct]
    · rw [hng.types.keeps _ _ _ rfl, Output.type, hzero.type]
  apply hmultiply.bind_leaves
  intro outNode hproduct
  apply (leaves_setOperationOutput _ _).bind
  intro _ s hs
  apply (leaves_setOperationOutput _ _).mono
  intro _ s' hs'
  refine ⟨outNode, outputNode, ?_, ?_, hproduct, hout⟩
  · rw [hs', Function.update_of_ne hin.distinct, hs, Function.update_self]
    rfl
  · rw [hs', Function.update_self]
    rfl

/-! ## The chain -/

omit [LinearOrder R] in
theorem Binds.unique {T : ElementType} {x' y y' : Tensor R} (h : Binds ng M T self x y nodes)
    (h' : Binds ng M T self x' y' nodes) : x = x' ∧ y = y' := by
  rcases h with ⟨first, second, hfirst, hsecond, hx, hy⟩
  rcases h' with ⟨first', second', hfirst', hsecond', hx', hy'⟩
  cases hfirst.symm.trans hfirst'
  cases hsecond.symm.trans hsecond'
  exact ⟨hx.tensor.symm.trans hx'.tensor, hy.tensor.symm.trans hy'.tensor⟩

/-- Every step after the first one reads as its hidden state what the step before it
binds to output 0. -/
structure Chain (ng : Ngraph) (M : Meaning R) (tables : Nat → NgraphNodes)
    (ops : Nat → OperationsBase) (l : Layer R) (x : Nat → Tensor R) (h : Tensor R) (times : Nat) :
    Prop where
  inputs : ∀ t < times, Inputs ng M (tables t) (ops t) l (x t)
  first : (ops 0).Supplies ng M (tables 0) l.elementType 4 h
  next : ∀ t, t + 1 < times → ∃ node,
    (exec (answer ng) (createNode (ops t)) (tables t)).state.mOutputAtOperandIndex
      ((ops t).outputIndex 0) = some (node, 0) ∧
    (exec (answer ng) ((ops (t + 1)).getInputNode 4) (tables (t + 1))).outcome = .ok node
  shape_hidden : h.shape = [l.batch, l.units]

/-- What the step reads. -/
def carried (l : Layer R) (h : Tensor R) (t : Nat) : Tensor R := if t = 0 then h else l.zeros

variable {tables : Nat → NgraphNodes} {ops : Nat → OperationsBase} {times : Nat}
variable {xs : Nat → Tensor R}

/-- **Every step.**  The state is lost between two of them. -/
theorem Chain.leaves (hM : M.Recurs) (hadd : M.AddsBias) (hzeros : M.FillsZeros)
    (hng : ng.ChecksShapes M) (hng' : ng.ChecksZeros M) (hinfer : ng.Infers M)
    (hchain : Chain ng M tables ops l xs h times) {t : Nat} (ht : t < times) :
    Leaves (answer ng) (tables t) (createNode (ops t)) fun _ =>
      Binds ng M l.elementType (ops t) l.zeros (l.step (xs t) (carried l h t)) := by
  induction t with
  | zero =>
      exact leaves_createNode hM hadd hzeros hng hng' hinfer (hchain.inputs 0 ht) hchain.first
        hchain.shape_hidden
  | succ t ih =>
      obtain ⟨node, hbound, hread⟩ := hchain.next t ht
      obtain ⟨_, -, first, -, hfirst, -, hzero, -⟩ := ih (by omega)
      cases hfirst.symm.trans hbound
      exact leaves_createNode hM hadd hzeros hng hng' hinfer (hchain.inputs _ ht)
        ⟨_, hread, hzero⟩ rfl

/-- The first step takes its inputs to zero, and so do the others without a state. -/
def Vanishes (l : Layer R) (x : Nat → Tensor R) (h : Tensor R) (times : Nat) : Prop :=
  ∀ t < times, ∀ n u, Inside [l.batch, l.units] [n, u] →
    fusedActivation l.activationFn
      (∑ i ∈ Finset.range l.inputSize, (x t).get [n, i] * l.weights.get [u, i] +
        ((if t = 0 then
            ∑ v ∈ Finset.range l.units, h.get [n, v] * l.recurrentWeights.get [u, v]
          else 0) + l.bias.get [u])) = 0

theorem vanishes_iff :
    Vanishes l xs h times ↔ ∀ t < times, l.step (xs t) (carried l h t) = l.zeros := by
  have hentry : ∀ t n u, Inside [l.batch, l.units] [n, u] →
      (l.step (xs t) (carried l h t)).get [n, u] = fusedActivation l.activationFn
        (∑ i ∈ Finset.range l.inputSize, (xs t).get [n, i] * l.weights.get [u, i] +
          ((if t = 0 then
              ∑ v ∈ Finset.range l.units, h.get [n, v] * l.recurrentWeights.get [u, v]
            else 0) + l.bias.get [u])) := by
    intro t n u hin
    rw [Layer.get_step _ _ _ hin]
    unfold carried
    split
    · rfl
    · have hlost : ∀ v ∈ Finset.range l.units,
          l.zeros.get [n, (v : Int)] * l.recurrentWeights.get [u, (v : Int)] = 0 := by
        intro v hv
        have hin' : Inside [l.batch, l.units] [n, (v : Int)] :=
          ⟨hin.1, ⟨Int.natCast_nonneg v, Int.ofNat_lt.mpr (Finset.mem_range.mp hv)⟩, trivial⟩
        have hzero : l.zeros.get [n, (v : Int)] = 0 := Tensor.get_ofFn hin'
        rw [hzero, zero_mul]
      rw [Finset.sum_eq_zero hlost]
  constructor
  · intro hvanishes t ht
    apply Tensor.ext_matrix rfl rfl
    intro n u hin
    have hzero : l.zeros.get [n, u] = 0 := Tensor.get_ofFn hin
    rw [hentry t n u hin, hzero]
    exact hvanishes t ht n u hin
  · intro hsteps t ht n u hin
    have hzero : l.zeros.get [n, u] = 0 := Tensor.get_ofFn hin
    rw [← hentry t n u hin, hsteps t ht, hzero]

/-- Where every step vanishes, so do the states of the layer. -/
theorem state_of_vanishes (hsteps : ∀ t < times, l.step (xs t) (carried l h t) = l.zeros) {t : Nat}
    (ht : t < times) : l.state xs h (t + 1) = l.zeros := by
  have hstate : l.state xs h t = carried l h t := by
    induction t with
    | zero => rfl
    | succ t ih =>
        have hprevious : l.state xs h t = carried l h t := ih (by omega)
        rw [Layer.state, hprevious, hsteps t (by omega)]
        rfl
  rw [Layer.state, hstate, hsteps t ht]

/-- The outputs of the steps are those of a sequence: output 1 is the state, and so is
output 0. -/
def Matches (ng : Ngraph) (M : Meaning R) (T : ElementType) (tables : Nat → NgraphNodes)
    (ops : Nat → OperationsBase) (timeMajor : Bool) (times : Nat) (y : Tensor R) : Prop :=
  ∀ t < times, Leaves (answer ng) (tables t) (createNode (ops t)) fun _ =>
    Binds ng M T (ops t) (y.atTime timeMajor t) (y.atTime timeMajor t)

/-- **A chain of `RNN` against one `UNIDIRECTIONAL_SEQUENCE_RNN`.**  The two agree,
and output 0 of every step is its output 1, exactly when no step has a state to
carry. -/
theorem chain_matches_iff (hM : M.Recurs) (hadd : M.AddsBias) (ht : M.Transposes)
    (hzeros : M.FillsZeros) (hng : ng.ChecksShapes M) (hng' : ng.ChecksZeros M)
    (hinfer : ng.Infers M) (hsize : 1 < l.inputSize) {seq : OperationsBase} {timeMajor : Bool}
    {y : Tensor R} {out : Node}
    (hseq : UnidirectionalSequenceRNN.Inputs ng M nodes seq l timeMajor times y h)
    (hout : (exec (answer ng) (UnidirectionalSequenceRNN.createNode seq)
      nodes).state.mOutputAtOperandIndex (seq.outputIndex 0) = some (out, 0))
    (hchain : Chain ng M tables ops l (y.atTime timeMajor) h times) :
    Matches ng M l.elementType tables ops timeMajor times (out.denote M 0) ↔
      Vanishes l (y.atTime timeMajor) h times := by
  have hsequence : l.Sequence timeMajor times y h (out.denote M 0) := by
    obtain ⟨_, -, hbinds⟩ := UnidirectionalSequenceRNN.leaves_createNode hM hadd ht hng hinfer
      hsize hseq
    rcases hbinds.output with ⟨node, hnode, hstates⟩
    cases hnode.symm.trans hout
    exact hstates
  rw [vanishes_iff]
  constructor
  · intro hmatches t htime
    obtain ⟨_, -, hbinds⟩ := hmatches t htime
    obtain ⟨_, -, hbinds'⟩ := hchain.leaves hM hadd hzeros hng hng' hinfer htime
    obtain ⟨hfirst, hsecond⟩ := hbinds.unique hbinds'
    exact hsecond.symm.trans hfirst
  · intro hsteps t htime
    have hmoment : (out.denote M 0).atTime timeMajor t = l.zeros :=
      (hsequence.states t htime).trans (state_of_vanishes hsteps htime)
    apply (hchain.leaves hM hadd hzeros hng hng' hinfer htime).mono
    intro _ s hbinds
    rw [hsteps t htime] at hbinds
    rwa [hmoment]

end RNN

end Chain

/-! ### Two steps -/

/-- The parameters of a layer of one unit for two inputs, a sequence of two moments
and its parts; all entries are one but those of the bias. -/
def chainTensors (bias : Int) : Nat → Tensor Int
  | 0 => Tensor.ofFn [2, 2, 2] fun _ => 1
  | 1 => Tensor.ofFn [1, 2] fun _ => 1
  | 2 => Tensor.ofFn [1, 1] fun _ => 1
  | 3 => Tensor.ofFn [1] fun _ => bias
  | 4 => Tensor.ofFn [2, 1] fun _ => 1
  | t + 5 => (Tensor.ofFn [2, 2, 2] fun _ => 1 : Tensor Int).atTime true t

abbrev chainMeaning (bias : Int) : Meaning Int := unrolledReference (chainTensors bias)

abbrev chainNgraph (bias : Int) : Ngraph := .fitting (chainMeaning bias)

def chainLayer (bias : Int) : Layer Int where
  batch := 2
  inputSize := 2
  units := 1
  weights := chainTensors bias 1
  recurrentWeights := chainTensors bias 2
  bias := chainTensors bias 3
  elementType := .f32
  activationFn := 1
  isFloat := ElementType.isFloat_f32
  batch_pos := Nat.two_pos
  inputSize_pos := Nat.two_pos
  units_pos := Nat.one_pos
  shape_weights := rfl
  shape_recurrentWeights := rfl
  shape_bias := rfl

/-- The sequence in one operation. -/
def chainSequence : OperationsBase :=
  sampleSequence .unidirectionalSequenceRnn [[2, 2, 2], [1, 2], [1, 1], [1], [2, 1]]
    [(.int32, 1), (.int32, 1)] 2

/-- The two steps in one model: the second one reads operand 7, the first output of
the first one. -/
def chainOperation (t : Nat) : OperationsBase :=
  let sample := sampleOperation .rnn [[2, 2], [2, 2], [1, 2], [1, 1], [1], [2, 1]] [(.int32, 1)]
  { sample with
    sModelInfo :=
      { mModel :=
          { sample.sModelInfo.mModel with
            operands := sample.sModelInfo.mModel.operands ++
              List.replicate 4 { type := .tensorFloat32, lifetime := .temporaryVariable }
            operations :=
              [{ type := .rnn, inputs := [0, 2, 3, 4, 5, 6], outputs := [7, 8] },
                { type := .rnn, inputs := [1, 2, 3, 4, 7, 6], outputs := [9, 10] }] } }
    mNnapiOperationIndex := t }

def chainNodes : NgraphNodes where
  mOutputAtOperandIndex index :=
    [(5, [2, 2]), (6, [2, 2]), (1, [1, 2]), (2, [1, 1]), (3, [1]), (4, [2, 1])][index]?.map
      fun parameter => (.mk (.parameter parameter.1 .f32 parameter.2) [], 0)

/-- The second step finds the entry that the first one wrote. -/
def chainTables (bias : Int) (t : Nat) : NgraphNodes :=
  if t = 0 then chainNodes
  else chainNodes.setOutputAtOperandIndex 7
    ((exec (answer (chainNgraph bias)) (RNN.createNode (chainOperation 0))
      chainNodes).state.mOutputAtOperandIndex 7)

theorem chainSequence_inputs (bias : Int) :
    UnidirectionalSequenceRNN.Inputs (chainNgraph bias) (chainMeaning bias)
      (sampleNodes [[2, 2, 2], [1, 2], [1, 1], [1], [2, 1]]) chainSequence (chainLayer bias) true 2
      (chainTensors bias 0) (chainTensors bias 4) where
  input := ⟨.mk (.parameter 0 .f32 [2, 2, 2]) [], rfl, rfl, rfl⟩
  weights := ⟨.mk (.parameter 1 .f32 [1, 2]) [], rfl, rfl, rfl⟩
  recurrentWeights := ⟨.mk (.parameter 2 .f32 [1, 1]) [], rfl, rfl, rfl⟩
  bias := ⟨.mk (.parameter 3 .f32 [1]) [], rfl, rfl, rfl⟩
  hidden := ⟨.mk (.parameter 4 .f32 [2, 1]) [], rfl, rfl, rfl⟩
  activationFn := ⟨1, rfl, rfl⟩
  layout := ⟨1, rfl, rfl⟩
  dimensions := rfl
  shape_input := rfl
  shape_hidden := rfl
  times_pos := Nat.two_pos
  distinct _ := by decide

theorem chainOperation_inputs (bias : Int) (t : Nat) (ht : t < 2) :
    RNN.Inputs (chainNgraph bias) (chainMeaning bias) (chainTables bias t) (chainOperation t)
      (chainLayer bias) ((chainTensors bias 0).atTime true t) := by
  match t, ht with
  | 0, _ =>
    exact
      { input := ⟨.mk (.parameter 5 .f32 [2, 2]) [], rfl, rfl, rfl⟩
        weights := ⟨.mk (.parameter 1 .f32 [1, 2]) [], rfl, rfl, rfl⟩
        recurrentWeights := ⟨.mk (.parameter 2 .f32 [1, 1]) [], rfl, rfl, rfl⟩
        bias := ⟨.mk (.parameter 3 .f32 [1]) [], rfl, rfl, rfl⟩
        activationFn := ⟨1, rfl, rfl⟩
        shape_input := rfl
        distinct := by decide }
  | 1, _ =>
    exact
      { input := ⟨.mk (.parameter 6 .f32 [2, 2]) [], rfl, rfl, rfl⟩
        weights := ⟨.mk (.parameter 1 .f32 [1, 2]) [], rfl, rfl, rfl⟩
        recurrentWeights := ⟨.mk (.parameter 2 .f32 [1, 1]) [], rfl, rfl, rfl⟩
        bias := ⟨.mk (.parameter 3 .f32 [1]) [], rfl, rfl, rfl⟩
        activationFn := ⟨1, rfl, rfl⟩
        shape_input := rfl
        distinct := by decide }

theorem chainMeaning_fillsZeros (bias : Int) : (chainMeaning bias).FillsZeros where
  zeros type shape := by
    have hentry : ∀ index, (([.int 0] : List Scalar).getD index (.int 0)).integer = 0 := by
      intro index
      cases index <;> rfl
    have hconstant : chainMeaning bias (.constant type shape [.int 0]) [] 0 =
        Tensor.ofFn shape fun index =>
          ((([.int 0] : List Scalar).getD (flat shape index).toNat (.int 0)).integer : Int) := rfl
    rw [hconstant]
    simp only [hentry]
  multiply _ _ := rfl

theorem chainNgraph_checksZeros (bias : Int) : (chainNgraph bias).ChecksZeros (chainMeaning bias)
    where
  zeros _ _ := rfl
  multiply _ _ _ _ _ := rfl

/-- The second step reads what the first one binds. -/
theorem chainOperation_chain (bias : Int) :
    RNN.Chain (chainNgraph bias) (chainMeaning bias) (chainTables bias) chainOperation
      (chainLayer bias) ((chainTensors bias 0).atTime true) (chainTensors bias 4) 2 := by
  have hhidden : (chainOperation 0).Supplies (chainNgraph bias) (chainMeaning bias)
      (chainTables bias 0) .f32 4 (chainTensors bias 4) :=
    ⟨.mk (.parameter 4 .f32 [2, 1]) [], rfl, rfl, rfl⟩
  refine ⟨fun t ht => chainOperation_inputs bias t ht, hhidden, fun t ht => ?_, rfl⟩
  obtain rfl : t = 0 := by omega
  obtain ⟨_, -, node, _, hbound, -⟩ := RNN.leaves_createNode unrolledReference_recurs
    unrolledReference_addsBias (chainMeaning_fillsZeros bias) (Ngraph.fitting_checksShapes _)
    (chainNgraph_checksZeros bias) (Ngraph.fitting_infers _)
    (chainOperation_inputs bias 0 Nat.two_pos) hhidden rfl
  have hread : ∀ s : NgraphNodes, (exec (answer (chainNgraph bias))
      ((chainOperation 1).getInputNode 4) s).outcome =
        .ok ((s.mOutputAtOperandIndex 7).getD default).1 := fun _ => rfl
  have htable : (chainTables bias 1).mOutputAtOperandIndex 7 = some (node, 0) := hbound
  refine ⟨node, hbound, (hread _).trans ?_⟩
  rw [htable]
  rfl

/-- With a bias of minus nine, no step is positive. -/
theorem chainOperation_matches :
    ∃ out : Node, RNN.Matches (chainNgraph (-9)) (chainMeaning (-9)) .f32 (chainTables (-9))
      chainOperation true 2 (out.denote (chainMeaning (-9)) 0) := by
  have hseq := chainSequence_inputs (-9)
  obtain ⟨_, -, hbinds⟩ := UnidirectionalSequenceRNN.leaves_createNode unrolledReference_recurs
    unrolledReference_addsBias unrolledReference_transposes (Ngraph.fitting_checksShapes _)
    (Ngraph.fitting_infers _) Nat.one_lt_two hseq
  rcases hbinds.output with ⟨out, hout, -⟩
  refine ⟨out, (RNN.chain_matches_iff unrolledReference_recurs unrolledReference_addsBias
    unrolledReference_transposes (chainMeaning_fillsZeros _) (Ngraph.fitting_checksShapes _)
    (chainNgraph_checksZeros _) (Ngraph.fitting_infers _) Nat.one_lt_two hseq hout
    (chainOperation_chain (-9))).mpr ?_⟩
  intro t ht n u hin
  rcases hin with ⟨⟨hn, hn'⟩, ⟨hu, hu'⟩, -⟩
  have hunits : u < 1 := hu'
  have hbatch : n < 2 := hn'
  obtain rfl : u = 0 := by omega
  have htime : t = 0 ∨ t = 1 := by omega
  have hrow : n = 0 ∨ n = 1 := by omega
  rcases htime with rfl | rfl
  · rcases hrow with rfl | rfl <;> rfl
  · rcases hrow with rfl | rfl <;> rfl

/-- Without a bias, output 1 of the first step is three more than output 0. -/
theorem chainOperation_differs :
    ¬ ∀ (M : Meaning Int) (ng : Ngraph) (l : Layer Int) (nodes : NgraphNodes) (seq : OperationsBase)
      (tables : Nat → NgraphNodes) (ops : Nat → OperationsBase) (timeMajor : Bool) (times : Nat)
      (y h : Tensor Int) (out : Node),
      M.Recurs → M.AddsBias → M.Transposes → M.FillsZeros → ng.ChecksShapes M → ng.ChecksZeros M →
      ng.Infers M → 1 < l.batch → 1 < l.inputSize →
      UnidirectionalSequenceRNN.Inputs ng M nodes seq l timeMajor times y h →
      (exec (answer ng) (UnidirectionalSequenceRNN.createNode seq)
        nodes).state.mOutputAtOperandIndex (seq.outputIndex 0) = some (out, 0) →
      RNN.Chain ng M tables ops l (y.atTime timeMajor) h times →
      RNN.Matches ng M l.elementType tables ops timeMajor times (out.denote M 0) := by
  intro hall
  have hseq := chainSequence_inputs 0
  obtain ⟨_, -, hbinds⟩ := UnidirectionalSequenceRNN.leaves_createNode unrolledReference_recurs
    unrolledReference_addsBias unrolledReference_transposes (Ngraph.fitting_checksShapes _)
    (Ngraph.fitting_infers _) Nat.one_lt_two hseq
  rcases hbinds.output with ⟨out, hout, -⟩
  have hmatches := hall _ _ _ _ _ _ _ _ _ _ _ _ unrolledReference_recurs unrolledReference_addsBias
    unrolledReference_transposes (chainMeaning_fillsZeros 0) (Ngraph.fitting_checksShapes _)
    (chainNgraph_checksZeros 0) (Ngraph.fitting_infers _) Nat.one_lt_two Nat.one_lt_two hseq hout
    (chainOperation_chain 0)
  obtain ⟨_, -, hsame⟩ := hmatches 0 Nat.two_pos
  obtain ⟨_, -, hstep⟩ := (chainOperation_chain 0).leaves unrolledReference_recurs
    unrolledReference_addsBias (chainMeaning_fillsZeros 0) (Ngraph.fitting_checksShapes _)
    (chainNgraph_checksZeros 0) (Ngraph.fitting_infers _) Nat.two_pos
  obtain ⟨hfirst, hsecond⟩ := hsame.unique hstep
  have hentry := congrArg (fun x => x.get [0, 0]) (hfirst.symm.trans hsecond)
  have hthree : (0 : Int) = 3 := hentry
  cases hthree

end NnHal
