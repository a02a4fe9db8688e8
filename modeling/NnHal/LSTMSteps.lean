import NnHal.MemoryCells

/-!
# A step of `LSTM.cpp`

From nodes that hold the parameters of a cell, its output and its state, the nodes of
`createNode` hold the output and the state after a step.
-/

namespace NnHal

open Command Tensors

namespace LSTM

section Steps

variable {R : Type} [Field R] [LinearOrder R]

/-- What `createNode` has fetched are the nodes of a cell, an input, an output and a
state. -/
structure Cell.Given (c : Cell) (ng : Ngraph) (M : Meaning R) (p : MemoryCell R)
    (x h s : Tensor R) : Prop where
  coupled : c.modes.isCIFGenabled = p.variant.coupled
  normalised : c.modes.isLayerNormUsed = p.variant.normalised
  elementType : c.elementType = p.elementType
  inputNode : c.inputNode.Realizes ng M p.elementType x
  hiddenState : c.initial_hidden_state.Realizes ng M p.elementType h
  cellState : c.initial_cell_state.Realizes ng M p.elementType s
  input : p.variant.coupled = false → ∃ W recurrent bias,
    c.inputWeights.input = some W ∧ c.recurrentWeights.input = some recurrent ∧
      c.biases.input = some bias ∧ GivenGate ng M p p.input W recurrent bias
  forget : GivenGate ng M p p.forget c.inputWeights.forget c.recurrentWeights.forget
    c.biases.forget
  cell : GivenGate ng M p p.cell c.inputWeights.cell c.recurrentWeights.cell c.biases.cell
  output : GivenGate ng M p p.output c.inputWeights.output c.recurrentWeights.output
    c.biases.output
  inputPeephole : p.variant.coupled = false →
    c.peephole.cell2input_weights.Realizes ng M p.elementType (p.peepholeWeights p.input)
  forgetPeephole :
    c.peephole.cell2forget_weights.Realizes ng M p.elementType (p.peepholeWeights p.forget)
  outputPeephole :
    c.peephole.cell2output_weights.Realizes ng M p.elementType (p.peepholeWeights p.output)
  norm : p.variant.normalised = true → ∃ weights : GateNodes, c.layerNorm = some weights ∧
    weights.forget.Realizes ng M p.elementType p.forget.norm ∧
    weights.cell.Realizes ng M p.elementType p.cell.norm ∧
    weights.output.Realizes ng M p.elementType p.output.norm ∧
    (p.variant.coupled = false →
      ∃ node, weights.input = some node ∧ node.Realizes ng M p.elementType p.input.norm)
  unprojected : p.variant.projected = false → c.projection = none
  projection : p.variant.projected = true → ∃ W bias, c.projection = some (W, bias) ∧
    W.Realizes ng M p.elementType p.projectionWeights ∧
    bias.Realizes ng M p.elementType p.addedBias
  activationFn : c.activationFn = p.activationFn
  cellClip : IsBound c.clipping c.cell_state_clipping p.cellClip
  projectionClip : p.variant.projected = true →
    IsBound c.clipping c.proj_clipping p.projectionClip
  shape_input : x.shape = [p.batch, p.inputSize]
  shape_hidden : h.shape = [p.batch, p.outputSize]
  shape_state : s.shape = [p.batch, p.units]

/-- The functions the nodes are computed with. -/
def builtFunctions (σ τ root : R → R) (p : MemoryCell R) : CellFunctions R where
  sigmoid := σ
  activation := builtActivation σ τ p.activationFn
  root := root

variable [IsStrictOrderedRing R] {M : Meaning R} {σ τ root : R → R} {ng : Ngraph}
variable {nodes : NgraphNodes} {c : Cell} {p : MemoryCell R} {x h s : Tensor R}

omit [IsStrictOrderedRing R] in
/-- What the input gate is computed from, where it has weights of its own. -/
theorem gives_inputSum (hM : M.ComputesCells σ τ root) (hng : ng.ChecksCells)
    (hc : c.Given ng M p x h s) :
    Gives (answer ng) nodes (inputSum c) fun sum => p.variant.coupled = false →
      ∃ node, sum = some node ∧ node.Realizes ng M p.elementType (.matrix p.batch p.units
        (p.peeped p.input (MemoryCell.entries s) (p.linear x h p.input))) := by
  unfold inputSum
  rw [hc.coupled]
  refine gives_ite (fun hcoupled => gives_pure fun hown => ?_) fun hown => ?_
  · rw [hown] at hcoupled
    cases hcoupled
  · have hown' : p.variant.coupled = false := Bool.eq_false_of_not_eq_true hown
    obtain ⟨W, recurrent, bias, hW, hrecurrent, -, hgate⟩ := hc.input hown'
    have hweights : Gives (answer ng) nodes (deref c.inputWeights.input) (· = W) := by
      rw [hW]
      exact gives_pure rfl
    have hrecurrents : Gives (answer ng) nodes (deref c.recurrentWeights.input)
        (· = recurrent) := by
      rw [hrecurrent]
      exact gives_pure rfl
    apply hweights.bind
    intro W' hW'
    apply hrecurrents.bind
    intro recurrent' hrecurrent'
    rw [hW', hrecurrent']
    refine (gives_peepholeSum hM hng hgate hc.inputNode hc.shape_input hc.hiddenState
      hc.shape_hidden (hc.inputPeephole hown') hc.cellState hc.shape_state).bind fun i_t hi_t => ?_
    exact gives_pure fun _ => ⟨i_t, rfl, hi_t⟩

omit [IsStrictOrderedRing R] in
/-- A placeholder is built in any case. -/
theorem gives_scratchNode (hM : M.ComputesCells σ τ root) (hng : ng.ChecksCells)
    {i_t : Node} {f : MemoryCell.Rows R}
    (hi_t : i_t.Realizes ng M p.elementType (.matrix p.batch p.units f)) {gates : Nat}
    (hgates : 0 < gates) :
    Gives (answer ng) nodes (scratchNode p.elementType i_t gates) fun _ => True := by
  have hzero : ((Scalar.decimal 0 0).value : R) = 0 := by norm_num [Scalar.value]
  have hshape : Gives (answer ng) nodes (issue (.getShape i_t)) (· = [p.batch, p.units]) :=
    gives_perform rfl hi_t.shape
  unfold scratchNode
  refine hshape.bind ?_
  intro _ heq
  subst heq
  apply (gives_number hM hng p.isFloat [p.batch, p.units] hzero).bind
  intro zeros hzeros
  rw [Tensor.fill_matrix] at hzeros
  apply (gives_mul hM hng p.isFloat hzeros hi_t).bind
  intro scratchBuffer hscratch
  exact gives_make (hng.concat scratchBuffer gates hgates hscratch.shape) trivial

/-- The input gate. -/
theorem gives_inputGate (hM : M.ComputesCells σ τ root) (hng : ng.ChecksCells)
    (hf32 : p.variant.normalised = true → p.elementType = .f32) (hc : c.Given ng M p x h s)
    {sum : NodePtr} {f_t : Node} {F : CellFunctions R} (hσ : F.sigmoid = σ) (hroot : F.root = root)
    (hsum : p.variant.coupled = false →
      ∃ node, sum = some node ∧ node.Realizes ng M p.elementType (.matrix p.batch p.units
        (p.peeped p.input (MemoryCell.entries s) (p.linear x h p.input))))
    (hf_t : f_t.Realizes ng M p.elementType (.matrix p.batch p.units (p.forgetGate F x h s))) :
    Gives (answer ng) nodes (inputGate c sum f_t) fun r =>
      r.1.Realizes ng M p.elementType (.matrix p.batch p.units (p.inputGate F x h s)) := by
  unfold inputGate
  rw [hc.coupled, hc.elementType, hc.normalised]
  refine gives_ite (fun hcoupled => ?_) fun hown => ?_
  · have hone : ((Scalar.decimal 1 0).value : R) = 1 := by norm_num [Scalar.value]
    have hshape : Gives (answer ng) nodes (issue (.getShape f_t)) (· = [p.batch, p.units]) :=
      gives_perform rfl hf_t.shape
    refine hshape.bind ?_
    intro _ heq
    subst heq
    apply (gives_number hM hng p.isFloat [p.batch, p.units] hone).bind
    intro ones hones
    rw [Tensor.fill_matrix] at hones
    apply (gives_matrices hng p.isFloat rfl hM.subtract hones hf_t).bind
    intro i_t hi_t
    apply (gives_scratchNode hM hng hi_t (Nat.succ_pos 2)).bind
    intro scratchBuffer _
    have hgate : p.inputGate F x h s = fun n u => 1 - p.forgetGate F x h s n u := by
      funext n u
      rw [MemoryCell.inputGate, if_pos hcoupled]
    rw [← hgate] at hi_t
    exact gives_pure hi_t
  · have hown' : p.variant.coupled = false := Bool.eq_false_of_not_eq_true hown
    obtain ⟨W, recurrent, bias, -, -, hbias, hgate⟩ := hc.input hown'
    obtain ⟨node, rfl, hnode⟩ := hsum hown'
    have hweights : p.variant.normalised = true →
        ∃ node, c.layerNorm.bind (·.input) = some node ∧
          node.Realizes ng M p.elementType p.input.norm := by
      intro hnormalised
      obtain ⟨weights, hnodes, -, -, -, hinput⟩ := hc.norm hnormalised
      obtain ⟨norm, hnorm, hrealizes⟩ := hinput hown'
      exact ⟨norm, by rw [hnodes]; exact hnorm, hrealizes⟩
    have hpointer : Gives (answer ng) nodes (deref (some node)) (· = node) := gives_pure rfl
    have hbiases : Gives (answer ng) nodes (deref c.biases.input) (· = bias) := by
      rw [hbias]
      exact gives_pure rfl
    apply hpointer.bind
    intro i_t hi_t
    apply hbiases.bind
    intro bias' hbias'
    rw [hi_t, hbias']
    apply (gives_gate hM hng hf32 hnode hweights hgate.bias).bind
    intro i_t hi_t
    apply (gives_applyActivation hM hng p.isFloat hi_t 6).bind
    intro i_t hi_t
    apply (gives_scratchNode hM hng hi_t (Nat.succ_pos 3)).bind
    intro scratchBuffer _
    have hinputGate : p.inputGate F x h s = fun n u => builtActivation σ τ 6
        (p.biased root p.input (p.peeped p.input (MemoryCell.entries s) (p.linear x h p.input))
          n u) := by
      funext n u
      rw [MemoryCell.inputGate, if_neg hown, hσ, hroot]
      rfl
    rw [← hinputGate] at hi_t
    exact gives_pure hi_t

omit [IsStrictOrderedRing R] in
/-- The projection of a matrix by its entries. -/
theorem projected_eq (f : MemoryCell.Rows R) :
    Tensor.matrix p.batch p.outputSize (fun n j => MemoryCell.clip p.projectionClip
      (∑ u ∈ Finset.range p.units,
        p.projectionWeights.get [j, u] * (Tensor.matrix p.batch p.units f).get [n, u] +
          p.addedBias.get [j])) =
      .matrix p.batch p.outputSize (p.projection f) := by
  apply Tensor.matrix_congr
  intro n j hin
  have hentry : ∀ u ∈ Finset.range p.units,
      p.projectionWeights.get [j, (u : Int)] *
          (Tensor.matrix p.batch p.units f).get [n, (u : Int)] =
        p.projectionWeights.get [j, (u : Int)] * f n u := by
    intro u hu
    have hlt : (u : Int) < p.units := Int.ofNat_lt.mpr (Finset.mem_range.mp hu)
    rw [Tensor.get_matrix ⟨hin.1, ⟨Int.natCast_nonneg u, hlt⟩, trivial⟩]
  rw [MemoryCell.projection, Finset.sum_congr rfl hentry, MemoryCell.get_addedBias]

/-- The output, projected where there is a projection. -/
theorem gives_hiddenState (hM : M.ComputesCells σ τ root) (hng : ng.ChecksCells)
    (hc : c.Given ng M p x h s) {o_t C : Node}
    (ho_t : o_t.Realizes ng M p.elementType
      (.matrix p.batch p.units (p.outputGate (builtFunctions σ τ root p) x h s)))
    (hC : C.Realizes ng M p.elementType
      (.matrix p.batch p.units (p.newState (builtFunctions σ τ root p) x h s))) :
    Gives (answer ng) nodes (hiddenState c o_t C) fun H =>
      H.Realizes ng M p.elementType (p.nextOutput (builtFunctions σ τ root p) x h s) := by
  have hactivated : Gives (answer ng) nodes (applyActivation C p.activationFn) fun g =>
      g.Realizes ng M p.elementType (.matrix p.batch p.units fun i j =>
        builtActivation σ τ p.activationFn (p.newState (builtFunctions σ τ root p) x h s i j)) :=
    gives_applyActivation hM hng p.isFloat hC p.activationFn
  have hshown : ∀ g : Node, g.Realizes ng M p.elementType (.matrix p.batch p.units fun i j =>
      builtActivation σ τ p.activationFn (p.newState (builtFunctions σ τ root p) x h s i j)) →
      Gives (answer ng) nodes (mul o_t g) fun r => r.Realizes ng M p.elementType
        (.matrix p.batch p.units (p.shown (builtFunctions σ τ root p) x h s)) :=
    fun g hg => gives_mul hM hng p.isFloat ho_t hg
  rw [← hc.activationFn] at hactivated hshown
  unfold hiddenState
  cases hprojected : p.variant.projected with
  | false =>
      have hoption := hc.unprojected hprojected
      have houtput : p.nextOutput (builtFunctions σ τ root p) x h s =
          .matrix p.batch p.units (p.shown (builtFunctions σ τ root p) x h s) := by
        rw [MemoryCell.nextOutput, MemoryCell.newOutput, hprojected, p.unprojected hprojected]
        rfl
      simp only [hoption, houtput]
      exact hactivated.bind hshown
  | true =>
      obtain ⟨W, bias, hoption, hW, hbias⟩ := hc.projection hprojected
      have houtput : p.newOutput (builtFunctions σ τ root p) x h s =
          p.projection (p.shown (builtFunctions σ τ root p) x h s) := by
        rw [MemoryCell.newOutput, if_pos hprojected]
      simp only [hoption]
      apply hactivated.bind
      intro g hg
      apply (hshown g hg).bind
      intro dotProd hdotProd
      refine (gives_product hM hng p.isFloat hW hdotProd p.shape_projectionWeights
        (Tensor.shape_matrix _ _ _)).bind fun projWeightsProduct hproduct => ?_
      apply (gives_turned hM hng hproduct).bind
      intro transposed htransposed
      refine (gives_addBias hM hng p.isFloat htransposed hbias
        MemoryCell.shape_addedBias).bind fun projBiasAdd hsum => ?_
      refine (gives_clip hM hng p.isFloat (hc.projectionClip hprojected) p.projectionClip_nonneg
        hsum).mono fun H hH => ?_
      have hmatrix := projected_eq (p := p) (p.shown (builtFunctions σ τ root p) x h s)
      rw [MemoryCell.nextOutput, houtput, ← hmatrix]
      exact hH

omit [IsStrictOrderedRing R] in
theorem Cell.Given.forgetNorm (hc : c.Given ng M p x h s)
    (hnormalised : p.variant.normalised = true) : ∃ node,
      c.layerNorm.map (·.forget) = some node ∧ node.Realizes ng M p.elementType p.forget.norm := by
  obtain ⟨weights, hweights, hforget, -⟩ := hc.norm hnormalised
  exact ⟨weights.forget, by rw [hweights]; rfl, hforget⟩

omit [IsStrictOrderedRing R] in
theorem Cell.Given.cellNorm (hc : c.Given ng M p x h s)
    (hnormalised : p.variant.normalised = true) : ∃ node,
      c.layerNorm.map (·.cell) = some node ∧ node.Realizes ng M p.elementType p.cell.norm := by
  obtain ⟨weights, hweights, -, hcell, -⟩ := hc.norm hnormalised
  exact ⟨weights.cell, by rw [hweights]; rfl, hcell⟩

omit [IsStrictOrderedRing R] in
theorem Cell.Given.outputNorm (hc : c.Given ng M p x h s)
    (hnormalised : p.variant.normalised = true) : ∃ node,
      c.layerNorm.map (·.output) = some node ∧ node.Realizes ng M p.elementType p.output.norm := by
  obtain ⟨weights, hweights, -, -, houtput, -⟩ := hc.norm hnormalised
  exact ⟨weights.output, by rw [hweights]; rfl, houtput⟩

/-- What follows the sums the gates are computed from. -/
def gated (c : Cell) (i_t : NodePtr) (f_t c_t o_t : Node) : Gen (Node × Node × Node) := do
  let f_t ← gate f_t (c.layerNorm.map (·.forget)) c.biases.forget c.modes.isLayerNormUsed
  let f_t ← applyActivation f_t 6
  let (i_t, scratchBuffer) ← inputGate c i_t f_t
  let c_t ← gate c_t (c.layerNorm.map (·.cell)) c.biases.cell c.modes.isLayerNormUsed
  let c_t ← applyActivation c_t c.activationFn
  let f_c ← mul f_t c.initial_cell_state
  let i_c ← mul i_t c_t
  let C ← add f_c i_c
  let C ← clip c.clipping C c.cell_state_clipping
  let w_C ← mul c.peephole.cell2output_weights C
  let o_t ← add o_t w_C
  let o_t ← gate o_t (c.layerNorm.map (·.output)) c.biases.output c.modes.isLayerNormUsed
  let o_t ← applyActivation o_t 6
  let H ← hiddenState c o_t C
  pure (scratchBuffer, H, C)

/-- The sums are those of the gates. -/
structure Sums (ng : Ngraph) (M : Meaning R) (p : MemoryCell R) (x h s : Tensor R)
    (i_t : NodePtr) (f_t c_t o_t : Node) : Prop where
  input : p.variant.coupled = false → ∃ node, i_t = some node ∧
    node.Realizes ng M p.elementType (.matrix p.batch p.units
      (p.peeped p.input (MemoryCell.entries s) (p.linear x h p.input)))
  forget : f_t.Realizes ng M p.elementType (.matrix p.batch p.units
    (p.peeped p.forget (MemoryCell.entries s) (p.linear x h p.forget)))
  cell : c_t.Realizes ng M p.elementType (.matrix p.batch p.units (p.linear x h p.cell))
  output : o_t.Realizes ng M p.elementType (.matrix p.batch p.units (p.linear x h p.output))

omit [IsStrictOrderedRing R] in
/-- A run of `cellOutputs` reaches the gates with their sums. -/
theorem run_cellOutputs (hM : M.ComputesCells σ τ root) (hng : ng.ChecksCells)
    (hc : c.Given ng M p x h s) {P : Except Stop (Node × Node × Node) → NgraphNodes → Prop}
    (hrest : ∀ i_t f_t c_t o_t, Sums ng M p x h s i_t f_t c_t o_t →
      P (exec (answer ng) (gated c i_t f_t c_t o_t) nodes).outcome
        (exec (answer ng) (gated c i_t f_t c_t o_t) nodes).state) :
    P (exec (answer ng) (cellOutputs c) nodes).outcome
      (exec (answer ng) (cellOutputs c) nodes).state := by
  unfold cellOutputs
  apply (gives_inputSum hM hng hc).run (P := P)
  intro i_t hi_t
  refine (gives_peepholeSum hM hng hc.forget hc.inputNode hc.shape_input hc.hiddenState
    hc.shape_hidden hc.forgetPeephole hc.cellState hc.shape_state).run (P := P) fun f_t hf_t => ?_
  refine (gives_gateSum hM hng hc.cell hc.inputNode hc.shape_input hc.hiddenState
    hc.shape_hidden).run (P := P) fun c_t hc_t => ?_
  refine (gives_gateSum hM hng hc.output hc.inputNode hc.shape_input hc.hiddenState
    hc.shape_hidden).run (P := P) fun o_t ho_t => ?_
  exact hrest i_t f_t c_t o_t ⟨hi_t, hf_t, hc_t, ho_t⟩

/-- The gates, the state and the output. -/
theorem gives_gated (hM : M.ComputesCells σ τ root) (hng : ng.ChecksCells)
    (hf32 : p.variant.normalised = true → p.elementType = .f32) (hc : c.Given ng M p x h s)
    {i_t : NodePtr} {f_t c_t o_t : Node} (hsums : Sums ng M p x h s i_t f_t c_t o_t) :
    Gives (answer ng) nodes (gated c i_t f_t c_t o_t) fun r =>
      r.2.1.Realizes ng M p.elementType (p.nextOutput (builtFunctions σ τ root p) x h s) ∧
        r.2.2.Realizes ng M p.elementType (p.nextState (builtFunctions σ τ root p) x h s) := by
  have hstate := hc.cellState
  rw [Tensor.eq_matrix hc.shape_state] at hstate
  unfold gated
  rw [hc.normalised, hc.activationFn]
  refine (gives_gate hM hng hf32 hsums.forget hc.forgetNorm hc.forget.bias).bind
    fun f_t hf_t => ?_
  apply (gives_applyActivation hM hng p.isFloat hf_t 6).bind
  intro f_t hf_t
  have hforget : f_t.Realizes ng M p.elementType
      (.matrix p.batch p.units (p.forgetGate (builtFunctions σ τ root p) x h s)) := hf_t
  refine (gives_inputGate hM hng hf32 hc (F := builtFunctions σ τ root p) rfl rfl hsums.input
    hforget).bind fun i_t hi_t => ?_
  apply (gives_gate hM hng hf32 hsums.cell hc.cellNorm hc.cell.bias).bind
  intro c_t hc_t
  apply (gives_applyActivation hM hng p.isFloat hc_t p.activationFn).bind
  intro c_t hc_t
  have hcandidate : c_t.Realizes ng M p.elementType
      (.matrix p.batch p.units (p.candidate (builtFunctions σ τ root p) x h)) := hc_t
  apply (gives_mul hM hng p.isFloat hforget hstate).bind
  intro f_c hf_c
  apply (gives_mul hM hng p.isFloat hi_t hcandidate).bind
  intro i_c hi_c
  apply (gives_add hM hng p.isFloat hf_c hi_c).bind
  intro C hC
  apply (gives_clip hM hng p.isFloat hc.cellClip p.cellClip_nonneg hC).bind
  intro C hC
  have hnew : C.Realizes ng M p.elementType
      (.matrix p.batch p.units (p.newState (builtFunctions σ τ root p) x h s)) := hC
  apply (gives_seen hM hng hc.outputPeephole hnew).bind
  intro w_C hw_C
  apply (gives_peeped hM hng hsums.output hw_C).bind
  intro o_t ho_t
  apply (gives_gate hM hng hf32 ho_t hc.outputNorm hc.output.bias).bind
  intro o_t ho_t
  apply (gives_applyActivation hM hng p.isFloat ho_t 6).bind
  intro o_t ho_t
  have houtput : o_t.Realizes ng M p.elementType
      (.matrix p.batch p.units (p.outputGate (builtFunctions σ τ root p) x h s)) := ho_t
  apply (gives_hiddenState hM hng hc houtput hnew).bind
  intro H hH
  exact gives_pure ⟨hH, hnew⟩

/-- **The step.** -/
theorem gives_cellOutputs (hM : M.ComputesCells σ τ root) (hng : ng.ChecksCells)
    (hf32 : p.variant.normalised = true → p.elementType = .f32) (hc : c.Given ng M p x h s) :
    Gives (answer ng) nodes (cellOutputs c) fun r =>
      r.2.1.Realizes ng M p.elementType (p.nextOutput (builtFunctions σ τ root p) x h s) ∧
        r.2.2.Realizes ng M p.elementType (p.nextState (builtFunctions σ τ root p) x h s) := by
  refine run_cellOutputs hM hng hc (P := fun outcome s' => ∃ r, outcome = .ok r ∧ s' = nodes ∧
    r.2.1.Realizes ng M p.elementType (p.nextOutput (builtFunctions σ τ root p) x h s) ∧
      r.2.2.Realizes ng M p.elementType (p.nextState (builtFunctions σ τ root p) x h s)) ?_
  intro i_t f_t c_t o_t hsums
  exact gives_gated hM hng hf32 hc hsums

/-- The normalisation of another type than `f32` is refused at the forget gate. -/
theorem refuses_cellOutputs (hM : M.ComputesCells σ τ root) (hng : ng.ChecksCells)
    (hnormalised : p.variant.normalised = true) (hne : p.elementType ≠ .f32)
    (hc : c.Given ng M p x h s) :
    Returns (answer ng) nodes (cellOutputs c) fun _ => False := by
  refine run_cellOutputs hM hng hc (P := fun outcome s' => ∀ r, outcome = .ok r →
    s' = nodes ∧ False) ?_
  intro i_t f_t c_t o_t hsums
  unfold gated
  rw [hc.normalised, hnormalised]
  exact (refuses_gate hM hng p.isFloat hne hsums.forget).bind fun _ hfalse => hfalse.elim

end Steps

end LSTM

end NnHal
