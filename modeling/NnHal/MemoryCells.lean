import NnHal.CellArithmetic
import NnHal.LSTM

/-!
# The long short-term memory

A cell keeps a state and an output.  A step scales the state by the forget gate, adds
a candidate scaled by the input gate, and shows the activated state through the output
gate.  A cell may couple its input gate to the forget gate, let the gates see the state
through peephole weights, normalise what the gates are computed from, and project the
output.

The nodes of `LSTM.cpp` compute the step, except that they activate with the hyperbolic
tangent where the code of the activation asks for none, and that ngraph refuses the
normalisation of 16-bit numbers: its constant is `f32`.
-/

namespace NnHal

open Command Tensors

/-! ## Cells -/

/-- The optional parts of a cell. -/
structure Variant where
  /-- the input gate is coupled to the forget gate -/
  coupled : Bool
  peephole : Bool
  normalised : Bool
  projected : Bool
  /-- the projection has a bias -/
  biased : Bool
  deriving DecidableEq, Repr

/-- The parameters of a gate; which of them count is up to the variant. -/
structure MemoryGate (R : Type) [Zero R] (inputSize units outputSize : Nat) where
  weights : Tensor R
  recurrentWeights : Tensor R
  peephole : Tensor R
  norm : Tensor R
  bias : Tensor R
  shape_weights : weights.shape = [units, inputSize]
  shape_recurrentWeights : recurrentWeights.shape = [units, outputSize]
  shape_peephole : peephole.shape = [units]
  shape_norm : norm.shape = [units]
  shape_bias : bias.shape = [units]

/-- The parameters of a cell. -/
structure MemoryCell (R : Type) [Field R] [LinearOrder R] where
  batch : Nat
  inputSize : Nat
  units : Nat
  outputSize : Nat
  variant : Variant
  input : MemoryGate R inputSize units outputSize
  forget : MemoryGate R inputSize units outputSize
  cell : MemoryGate R inputSize units outputSize
  output : MemoryGate R inputSize units outputSize
  projectionWeights : Tensor R
  projectionBias : Tensor R
  activationFn : Int
  cellClip : R
  projectionClip : R
  elementType : ElementType
  isFloat : elementType.isFloat = true
  batch_pos : 0 < batch
  units_pos : 0 < units
  cellClip_nonneg : 0 ≤ cellClip
  projectionClip_nonneg : 0 ≤ projectionClip
  shape_projectionWeights : projectionWeights.shape = [outputSize, units]
  shape_projectionBias : projectionBias.shape = [outputSize]
  unprojected : variant.projected = false → outputSize = units

/-- The functions a cell is computed with. -/
structure CellFunctions (R : Type) where
  sigmoid : R → R
  activation : R → R
  root : R → R

namespace MemoryCell

section Equations

variable {R : Type} [Field R] [LinearOrder R]

/-- A value for every row of the batch and every unit. -/
abbrev Rows (R : Type) := Int → Int → R

/-- The entries of a matrix. -/
abbrev entries (x : Tensor R) : Rows R := fun n u => x.get [n, u]

/-- The number between the bounds; a bound of zero is none. -/
def clip (bound v : R) : R := if bound = 0 then v else min (max v (-bound)) bound

variable (c : MemoryCell R) (F : CellFunctions R) (x h s : Tensor R)

/-- `x Wᵀ + h Rᵀ`. -/
def linear (gate : MemoryGate R c.inputSize c.units c.outputSize) : Rows R := fun n u =>
  ∑ i ∈ Finset.range c.inputSize, x.get [n, i] * gate.weights.get [u, i] +
    ∑ j ∈ Finset.range c.outputSize, h.get [n, j] * gate.recurrentWeights.get [u, j]

/-- With a state seen through the peephole weights. -/
def peeped (gate : MemoryGate R c.inputSize c.units c.outputSize) (state f : Rows R) : Rows R :=
  fun n u => if c.variant.peephole then f n u + gate.peephole.get [u] * state n u else f n u

/-- A row with the mean zero and the variance one, up to `10⁻⁸`. -/
def standard (root : R → R) (f : Int → R) (u : Int) : R :=
  let centred := fun v => f v - Tensor.mean c.units f
  centred u / root (Tensor.mean c.units (fun v => centred v * centred v) + 1 / 10 ^ 8)

/-- What a gate activates: with the bias, normalised where the cell is. -/
def biased (root : R → R) (gate : MemoryGate R c.inputSize c.units c.outputSize) (f : Rows R) :
    Rows R :=
  fun n u =>
    if c.variant.normalised then c.standard root (f n) u * gate.norm.get [u] + gate.bias.get [u]
    else f n u + gate.bias.get [u]

def forgetGate : Rows R := fun n u =>
  F.sigmoid (c.biased F.root c.forget (c.peeped c.forget (entries s) (c.linear x h c.forget)) n u)

def inputGate : Rows R := fun n u =>
  if c.variant.coupled then 1 - c.forgetGate F x h s n u
  else F.sigmoid (c.biased F.root c.input (c.peeped c.input (entries s) (c.linear x h c.input)) n u)

def candidate : Rows R := fun n u =>
  F.activation (c.biased F.root c.cell (c.linear x h c.cell) n u)

/-- `clip (f C + i g)`. -/
def newState : Rows R := fun n u =>
  clip c.cellClip
    (c.forgetGate F x h s n u * s.get [n, u] + c.inputGate F x h s n u * c.candidate F x h n u)

/-- The output gate sees the new state. -/
def outputGate : Rows R := fun n u =>
  F.sigmoid
    (c.biased F.root c.output (c.peeped c.output (c.newState F x h s) (c.linear x h c.output)) n u)

def shown : Rows R := fun n u => c.outputGate F x h s n u * F.activation (c.newState F x h s n u)

def projection (f : Rows R) : Rows R := fun n j =>
  clip c.projectionClip (∑ u ∈ Finset.range c.units, c.projectionWeights.get [j, u] * f n u +
    if c.variant.biased then c.projectionBias.get [j] else 0)

def newOutput : Rows R :=
  if c.variant.projected then c.projection (c.shown F x h s) else c.shown F x h s

/-- The state after the step. -/
def nextState : Tensor R := .matrix c.batch c.units (c.newState F x h s)

/-- The output of the step. -/
def nextOutput : Tensor R := .matrix c.batch c.outputSize (c.newOutput F x h s)

/-- The function a code stands for; code 0 is none. -/
def activation (σ τ : R → R) (code : Int) (v : R) : R :=
  if code = 1 then max v 0
  else if code = 3 then min (max v 0) (6 : Nat)
  else if code = 4 then τ v
  else if code = 6 then σ v
  else v

/-- The weights through which the nodes see a state: zeros where there are none. -/
def peepholeWeights (gate : MemoryGate R c.inputSize c.units c.outputSize) : Tensor R :=
  if c.variant.peephole then gate.peephole else .ofFn [c.units] fun _ => 0

/-- The bias the nodes add to the projection. -/
def addedBias : Tensor R :=
  if c.variant.biased then c.projectionBias else .ofFn [c.outputSize] fun _ => 0

end Equations

section Weights

variable {R : Type} [Field R] [LinearOrder R] {c : MemoryCell R}

omit [LinearOrder R] in
theorem get_zeros (shape : List Nat) (index : List Int) :
    (Tensor.ofFn shape fun _ => (0 : R)).get index = 0 := ite_self 0

theorem shape_peepholeWeights (gate : MemoryGate R c.inputSize c.units c.outputSize) :
    (c.peepholeWeights gate).shape = [c.units] := by
  unfold peepholeWeights
  split
  · exact gate.shape_peephole
  · rfl

theorem shape_addedBias : c.addedBias.shape = [c.outputSize] := by
  unfold addedBias
  split
  · exact c.shape_projectionBias
  · rfl

/-- Zero weights add nothing. -/
theorem peeped_eq (gate : MemoryGate R c.inputSize c.units c.outputSize) (state f : Rows R) :
    (fun n u => f n u + (c.peepholeWeights gate).get [u] * state n u) = c.peeped gate state f := by
  funext n u
  unfold peepholeWeights peeped
  split
  · rfl
  · rw [get_zeros, zero_mul, add_zero]

theorem biased_of_normalised (h : c.variant.normalised = true) (root : R → R)
    (gate : MemoryGate R c.inputSize c.units c.outputSize) (f : Rows R) :
    c.biased root gate f =
      fun n u => c.standard root (f n) u * gate.norm.get [u] + gate.bias.get [u] := by
  funext n u
  rw [biased, if_pos h]

theorem biased_of_plain (h : ¬ c.variant.normalised = true) (root : R → R)
    (gate : MemoryGate R c.inputSize c.units c.outputSize) (f : Rows R) :
    c.biased root gate f = fun n u => f n u + gate.bias.get [u] := by
  funext n u
  rw [biased, if_neg h]

theorem get_addedBias (j : Int) :
    c.addedBias.get [j] = if c.variant.biased then c.projectionBias.get [j] else 0 := by
  unfold addedBias
  split
  · rfl
  · exact get_zeros _ _

end Weights

end MemoryCell

/-! ## The words of the bounds -/

namespace LSTM

section Bounds

variable {R : Type} [Field R] [LinearOrder R]

/-- The format of the words a floating-point type holds. -/
def floatFormat (T : CType) : Quantization.FloatFormat :=
  if T = .float16 then .binary16 else .binary32

/-- The word stands for the bound. -/
structure IsBound (T : CType) (word : Int) (bound : R) : Prop where
  type : T = .float32 ∨ T = .float16
  word_nonneg : 0 ≤ word
  finite : (floatFormat T).Finite word.toNat
  value : ((T.scalar word).value : R) = bound

variable {T : CType} {word : Int} {bound : R}

theorem clipsNothing_iff [IsStrictOrderedRing R] (h : IsBound T word bound) :
    clipsNothing T word = true ↔ bound = 0 := by
  have hvalue : (T.scalar word).value = (floatFormat T).value word.toNat := by
    rcases h.type with rfl | rfl <;> rfl
  have hzero : ((T.scalar word).value : R) = 0 ↔ (T.scalar word).value = 0 := Rat.cast_eq_zero
  obtain ⟨w, rfl⟩ := Int.eq_ofNat_of_zero_le h.word_nonneg
  rw [← h.value, hzero, hvalue, Quantization.FloatFormat.value_eq_zero_iff h.finite]
  unfold clipsNothing floatFormat
  rcases h.type with rfl | rfl
  · simp only [decide_eq_true_eq, Quantization.FloatFormat.binary32, Int.toNat_natCast,
      reduceCtorEq, if_false]
    omega
  · simp only [decide_eq_true_eq, Quantization.FloatFormat.binary16, Int.toNat_natCast, if_true]
    omega

end Bounds

/-! ## The nodes of a gate -/

section Gates

variable {R : Type} [Field R] [LinearOrder R] [IsStrictOrderedRing R] {M : Meaning R}
variable {σ τ root : R → R} {ng : Ngraph} {nodes : NgraphNodes} {T : ElementType} {m n : Nat}
variable {f g : MemoryCell.Rows R} {c : MemoryCell R} {x h s : Tensor R}

omit [IsStrictOrderedRing R] in
theorem gives_add (hM : M.ComputesCells σ τ root) (hng : ng.ChecksCells) (hT : T.isFloat = true)
    {a b : Node} (ha : a.Realizes ng M T (.matrix m n f)) (hb : b.Realizes ng M T (.matrix m n g)) :
    Gives (answer ng) nodes (add a b) fun r =>
      r.Realizes ng M T (.matrix m n fun i j => f i j + g i j) :=
  gives_matrices hng hT rfl hM.add ha hb

omit [IsStrictOrderedRing R] in
theorem gives_mul (hM : M.ComputesCells σ τ root) (hng : ng.ChecksCells) (hT : T.isFloat = true)
    {a b : Node} (ha : a.Realizes ng M T (.matrix m n f)) (hb : b.Realizes ng M T (.matrix m n g)) :
    Gives (answer ng) nodes (mul a b) fun r =>
      r.Realizes ng M T (.matrix m n fun i j => f i j * g i j) :=
  gives_matrices hng hT rfl hM.multiply ha hb

omit [IsStrictOrderedRing R] in
/-- A bias is added to every row. -/
theorem gives_addBias (hM : M.ComputesCells σ τ root) (hng : ng.ChecksCells)
    (hT : T.isFloat = true) {a b : Node} {y : Tensor R} (ha : a.Realizes ng M T (.matrix m n f))
    (hb : b.Realizes ng M T y) (hy : y.shape = [n]) :
    Gives (answer ng) nodes (add a b) fun r =>
      r.Realizes ng M T (.matrix m n fun i j => f i j + y.get [j]) :=
  gives_rowRight hng hT rfl hM.add ha hb hy

/-- The bound of `clip` holds entry by entry. -/
theorem gives_clip (hM : M.ComputesCells σ τ root) (hng : ng.ChecksCells) (hT : T.isFloat = true)
    {type : CType} {word : Int} {bound : R} (hbound : IsBound type word bound)
    (hnonneg : 0 ≤ bound) {a : Node} (ha : a.Realizes ng M T (.matrix m n f)) :
    Gives (answer ng) nodes (clip type a word) fun r =>
      r.Realizes ng M T (.matrix m n fun i j => MemoryCell.clip bound (f i j)) := by
  unfold clip
  refine gives_ite (fun hnothing => ?_) fun hbounded => ?_
  · have hzero := (clipsNothing_iff hbound).mp hnothing
    refine gives_pure ?_
    simpa only [MemoryCell.clip, hzero, if_true] using ha
  · have hne : bound ≠ 0 := fun hzero => hbounded ((clipsNothing_iff hbound).mpr hzero)
    have hvalue : 0 ≤ (type.scalar word).value := by
      rw [← hbound.value] at hnonneg
      exact_mod_cast hnonneg
    have hordered : (NodeOp.clamp (.neg (type.scalar word)) (type.scalar word)).Ordered :=
      neg_le_self hvalue
    have hlow : ((Scalar.neg (type.scalar word)).value : R) = -bound := by
      rw [← hbound.value]
      exact Rat.cast_neg _
    apply (gives_entrywise hng hT rfl hordered (fun y => hM.clamp y _ _) ha).mono
    intro r hr
    rw [hlow, hbound.value] at hr
    simpa only [MemoryCell.clip, hne, if_false] using hr

/-- The function the nodes compute for a code: the hyperbolic tangent where no other
case applies. -/
def builtActivation (σ τ : R → R) (code : Int) (v : R) : R :=
  if code = 1 then max v 0
  else if code = 3 then min (max v 0) (6 : Nat)
  else if code = 4 then τ v
  else if code = 6 then σ v
  else τ v

omit [IsStrictOrderedRing R] in
theorem gives_applyActivation (hM : M.ComputesCells σ τ root) (hng : ng.ChecksCells)
    (hT : T.isFloat = true) {a : Node} (ha : a.Realizes ng M T (.matrix m n f)) (code : Int) :
    Gives (answer ng) nodes (applyActivation a code) fun r =>
      r.Realizes ng M T (.matrix m n fun i j => builtActivation σ τ code (f i j)) := by
  have hrelus : NodeOp.relu.Ordered := trivial
  have hsigmoids : NodeOp.sigmoid.Ordered := trivial
  have htanhs : NodeOp.tanh.Ordered := trivial
  unfold applyActivation
  by_cases hrelu : code = 1
  · simp only [builtActivation, hrelu, if_true]
    exact gives_entrywise hng hT rfl hrelus hM.relu ha
  by_cases hrelu6 : code = 3
  · have hordered : (NodeOp.clamp (.int 0) (.int 6)).Ordered := by
      have hle : ((0 : Int) : Rat) ≤ ((6 : Int) : Rat) := by norm_num
      exact hle
    have hlow : ((Scalar.int 0).value : R) = 0 := by simp [Scalar.value]
    have hhigh : ((Scalar.int 6).value : R) = (6 : Nat) := by simp [Scalar.value]
    have hclamp : ∀ y, M (.clamp (.int 0) (.int 6)) [y] 0 =
        y.map fun v : R => min (max v 0) (6 : Nat) := by
      intro y
      rw [hM.clamp, hlow, hhigh]
    simp only [builtActivation, hrelu6, if_true, Int.reduceEq, if_false]
    exact gives_entrywise hng hT rfl hordered hclamp ha
  by_cases hcode : code = 4
  · simp only [builtActivation, hcode, if_true, Int.reduceEq, if_false]
    exact gives_entrywise hng hT rfl htanhs hM.tanh ha
  by_cases hsigmoid : code = 6
  · simp only [builtActivation, hsigmoid, if_true, Int.reduceEq, if_false]
    exact gives_entrywise hng hT rfl hsigmoids hM.sigmoid ha
  · simp only [builtActivation, hrelu, hrelu6, hcode, hsigmoid, if_false]
    exact gives_entrywise hng hT rfl htanhs hM.tanh ha

/-- The nodes of the parameters of a gate. -/
structure GivenGate (ng : Ngraph) (M : Meaning R) (c : MemoryCell R)
    (gate : MemoryGate R c.inputSize c.units c.outputSize) (W recurrent bias : Node) : Prop where
  weights : W.Realizes ng M c.elementType gate.weights
  recurrentWeights : recurrent.Realizes ng M c.elementType gate.recurrentWeights
  bias : bias.Realizes ng M c.elementType gate.bias

variable {gate : MemoryGate R c.inputSize c.units c.outputSize}

omit [IsStrictOrderedRing R] in
theorem gives_gateSum (hM : M.ComputesCells σ τ root) (hng : ng.ChecksCells)
    {input hidden W recurrent bias : Node} (hgate : GivenGate ng M c gate W recurrent bias)
    (hinput : input.Realizes ng M c.elementType x) (hx : x.shape = [c.batch, c.inputSize])
    (hhidden : hidden.Realizes ng M c.elementType h) (hh : h.shape = [c.batch, c.outputSize]) :
    Gives (answer ng) nodes (gateSum input W hidden recurrent) fun r =>
      r.Realizes ng M c.elementType (.matrix c.batch c.units (c.linear x h gate)) := by
  unfold gateSum
  refine (gives_product hM hng c.isFloat hinput hgate.weights hx gate.shape_weights).bind
    fun x_W hx_W => ?_
  refine (gives_product hM hng c.isFloat hhidden hgate.recurrentWeights hh
    gate.shape_recurrentWeights).bind fun h_R hh_R => ?_
  exact gives_add hM hng c.isFloat hx_W hh_R

omit [IsStrictOrderedRing R] in
/-- A state, seen through the weights. -/
theorem gives_seen (hM : M.ComputesCells σ τ root) (hng : ng.ChecksCells) {w state : Node}
    (hw : w.Realizes ng M c.elementType (c.peepholeWeights gate))
    (hstate : state.Realizes ng M c.elementType (.matrix c.batch c.units g)) :
    Gives (answer ng) nodes (mul w state) fun r =>
      r.Realizes ng M c.elementType
        (.matrix c.batch c.units fun n u => (c.peepholeWeights gate).get [u] * g n u) :=
  gives_rowLeft hng c.isFloat rfl hM.multiply hw (MemoryCell.shape_peepholeWeights gate) hstate

omit [IsStrictOrderedRing R] in
/-- And added to a sum. -/
theorem gives_peeped (hM : M.ComputesCells σ τ root) (hng : ng.ChecksCells) {sum seen : Node}
    (hsum : sum.Realizes ng M c.elementType (.matrix c.batch c.units f))
    (hseen : seen.Realizes ng M c.elementType
      (.matrix c.batch c.units fun n u => (c.peepholeWeights gate).get [u] * g n u)) :
    Gives (answer ng) nodes (add sum seen) fun r =>
      r.Realizes ng M c.elementType (.matrix c.batch c.units (c.peeped gate g f)) := by
  apply (gives_add hM hng c.isFloat hsum hseen).mono
  intro r hr
  rwa [MemoryCell.peeped_eq] at hr

omit [IsStrictOrderedRing R] in
theorem gives_peepholeSum (hM : M.ComputesCells σ τ root) (hng : ng.ChecksCells)
    {input hidden W recurrent bias w state : Node}
    (hgate : GivenGate ng M c gate W recurrent bias)
    (hinput : input.Realizes ng M c.elementType x) (hx : x.shape = [c.batch, c.inputSize])
    (hhidden : hidden.Realizes ng M c.elementType h) (hh : h.shape = [c.batch, c.outputSize])
    (hw : w.Realizes ng M c.elementType (c.peepholeWeights gate))
    (hstate : state.Realizes ng M c.elementType s) (hs : s.shape = [c.batch, c.units]) :
    Gives (answer ng) nodes (peepholeSum input W hidden recurrent w state) fun r =>
      r.Realizes ng M c.elementType (.matrix c.batch c.units
        (c.peeped gate (MemoryCell.entries s) (c.linear x h gate))) := by
  rw [Tensor.eq_matrix hs] at hstate
  unfold peepholeSum
  apply (gives_gateSum hM hng hgate hinput hx hhidden hh).bind
  intro sum hsum
  exact (gives_seen hM hng hw hstate).bind fun w_c hw_c => gives_peeped hM hng hsum hw_c

/-! ### Normalisation -/

/-- What follows the variance. -/
def scaled (normalizationConstant diff var normalizedweights bias : Node) : Gen Node := do
  let add_var ← add var normalizationConstant
  let sqrt ← makeShared .sqrt [add_var]
  let stddev_inv ← makeShared .divide [diff, sqrt]
  let mul_norm_weights ← mul stddev_inv normalizedweights
  add mul_norm_weights bias

/-- What is scaled: the distance of every entry from the mean of its row. -/
def centred (n : Nat) (f : MemoryCell.Rows R) : MemoryCell.Rows R :=
  fun i j => f i j - Tensor.mean n (f i)

/-- A run of `LayerNorm` reaches the variance. -/
theorem run_LayerNorm (hM : M.ComputesCells σ τ root) (hng : ng.ChecksCells)
    (hT : T.isFloat = true) {a weights bias : Node} (ha : a.Realizes ng M T (.matrix m n f))
    {P : Except Stop Node → NgraphNodes → Prop}
    (hrest : ∀ epsilon diff var : Node,
      epsilon.Realizes ng M .f32 (.ofFn [] fun _ => 1 / 10 ^ 8) →
      diff.Realizes ng M T (.matrix m n (centred n f)) →
      var.Realizes ng M T
        (.matrix m 1 fun i _ => Tensor.mean n fun j => centred n f i j * centred n f i j) →
      P (exec (answer ng) (scaled epsilon diff var weights bias) nodes).outcome
        (exec (answer ng) (scaled epsilon diff var weights bias) nodes).state) :
    P (exec (answer ng) (LayerNorm a weights bias) nodes).outcome
      (exec (answer ng) (LayerNorm a weights bias) nodes).state := by
  have hepsilon : ((Scalar.decimal 1 (-8)).value : R) = 1 / 10 ^ 8 := by
    norm_num [Scalar.value]
  have haxis : Gives (answer ng) nodes (makeShared (.constant .i32 [] [.int (-1)]) [])
      fun axis => axis = lastAxis :=
    gives_make (hng.constant _ _ _ (.inl rfl)) rfl
  unfold LayerNorm
  apply (gives_number hM hng rfl [] hepsilon).run (P := P)
  intro epsilon hconstant
  refine haxis.run (P := P) ?_
  intro _ heq
  subst heq
  apply (gives_rowMeans hM hng hT ha).run (P := P)
  intro mean hmean
  apply (gives_columnRight hng hT rfl hM.subtract ha hmean).run (P := P)
  intro diff hdiff
  apply (gives_mul hM hng hT hdiff hdiff).run (P := P)
  intro multiply hmultiply
  apply (gives_rowMeans hM hng hT hmultiply).run (P := P)
  intro var hvar
  exact hrest epsilon diff var hconstant hdiff hvar

/-- The normalised matrix. -/
theorem gives_LayerNorm (hM : M.ComputesCells σ τ root) (hng : ng.ChecksCells)
    {a weights bias : Node} (hf32 : c.elementType = .f32)
    (ha : a.Realizes ng M c.elementType (.matrix c.batch c.units f))
    (hweights : weights.Realizes ng M c.elementType gate.norm)
    (hbias : bias.Realizes ng M c.elementType gate.bias) :
    Gives (answer ng) nodes (LayerNorm a weights bias) fun r =>
      r.Realizes ng M c.elementType (.matrix c.batch c.units fun i j =>
        c.standard root (f i) j * gate.norm.get [j] + gate.bias.get [j]) := by
  have hordered : NodeOp.sqrt.Ordered := trivial
  refine run_LayerNorm hM hng c.isFloat ha (P := fun outcome s => ∃ r, outcome = .ok r ∧
    s = nodes ∧ r.Realizes ng M c.elementType _) ?_
  intro epsilon diff var hepsilon hdiff hvar
  rw [← hf32] at hepsilon
  unfold scaled
  refine (gives_arithmetic hng c.isFloat rfl hM.add hvar hepsilon (broadcastable_number _)).bind
    fun add_var hadd => ?_
  rw [Tensor.broadcast_number_right] at hadd
  apply (gives_entrywise hng c.isFloat rfl hordered hM.sqrt hadd).bind
  intro sqrt hsqrt
  refine (gives_columnRight hng c.isFloat rfl hM.divide hdiff hsqrt).bind
    fun quotient hquotient => ?_
  refine (gives_rowRight hng c.isFloat rfl hM.multiply hquotient hweights gate.shape_norm).bind
    fun product hproduct => ?_
  exact gives_addBias hM hng c.isFloat hproduct hbias gate.shape_bias

/-- The constant is `f32`, and ngraph does not add it to a variance of another type. -/
theorem refuses_LayerNorm (hM : M.ComputesCells σ τ root) (hng : ng.ChecksCells)
    (hT : T.isFloat = true) (hne : T ≠ .f32) {a weights bias : Node}
    (ha : a.Realizes ng M T (.matrix m n f)) :
    Returns (answer ng) nodes (LayerNorm a weights bias) fun _ => False := by
  refine run_LayerNorm hM hng hT ha (P := fun outcome s => ∀ r, outcome = .ok r →
    s = nodes ∧ False) ?_
  intro epsilon diff var hepsilon hdiff hvar
  have hfloat : (ng.getElementType var).isFloat = true := by rw [hvar.type, hT]
  have hfits : Broadcastable (ng.getShape var) (ng.getShape epsilon) := by
    rw [hepsilon.shape]
    exact broadcastable_number _
  unfold scaled
  refine Returns.bind (Q := fun _ => False) (returns_make_accepted fun haccepts => ?_)
    fun _ hfalse => hfalse.elim
  have hsame := (hng.arithmetic .add var epsilon rfl hfloat hfits).mp haccepts
  rw [hepsilon.type, hvar.type] at hsame
  exact hne hsame.symm

/-- A gate before its activation. -/
theorem gives_gate (hM : M.ComputesCells σ τ root) (hng : ng.ChecksCells) {a bias : Node}
    {weights : NodePtr} (hf32 : c.variant.normalised = true → c.elementType = .f32)
    (ha : a.Realizes ng M c.elementType (.matrix c.batch c.units f))
    (hweights : c.variant.normalised = true →
      ∃ node, weights = some node ∧ node.Realizes ng M c.elementType gate.norm)
    (hbias : bias.Realizes ng M c.elementType gate.bias) :
    Gives (answer ng) nodes (LSTM.gate a weights bias c.variant.normalised) fun r =>
      r.Realizes ng M c.elementType
        (.matrix c.batch c.units (c.biased root gate f)) := by
  unfold LSTM.gate
  refine gives_ite (fun hnormalised => ?_) fun hplain => ?_
  · obtain ⟨node, rfl, hnode⟩ := hweights hnormalised
    rw [MemoryCell.biased_of_normalised hnormalised]
    have hpointer : Gives (answer ng) nodes (deref (some node)) fun r =>
        r.Realizes ng M c.elementType gate.norm := gives_pure hnode
    apply hpointer.bind
    intro norm hnorm
    exact gives_LayerNorm hM hng (hf32 hnormalised) ha hnorm hbias
  · rw [MemoryCell.biased_of_plain hplain]
    exact gives_addBias hM hng c.isFloat ha hbias gate.shape_bias

theorem refuses_gate (hM : M.ComputesCells σ τ root) (hng : ng.ChecksCells)
    (hT : T.isFloat = true) (hne : T ≠ .f32) {a bias : Node} {weights : NodePtr}
    (ha : a.Realizes ng M T (.matrix m n f)) :
    Returns (answer ng) nodes (LSTM.gate a weights bias true) fun _ => False := by
  unfold LSTM.gate
  refine returns_ite (fun _ => ?_) fun hfalse => absurd rfl hfalse
  have hpointer : Returns (answer ng) nodes (deref weights) fun _ => True := by
    cases weights with
    | some node => exact returns_pure trivial
    | none =>
        refine Returns.bind (Q := fun _ => True) (returns_fault trivial) fun _ _ => ?_
        exact returns_pure trivial
  exact hpointer.bind fun node _ => refuses_LayerNorm hM hng hT hne ha

end Gates

end LSTM

end NnHal
