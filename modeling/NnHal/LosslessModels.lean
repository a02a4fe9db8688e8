import NnHal.LosslessOperations

/-!
# Quantized models that round nothing

Where operations make no numbers, and their operands share a scale and a zero point,
every number has an integer already.  Storing it loses nothing, so a quantized model
of such operations computes exactly what the model computes over the real numbers.
-/

namespace NnHal

open Command Tensors Quantization StraightLine

variable {info : NnapiModelInfo} {env real real' : Environment (Tensor ℝ)} {operation : Operation}

/-! ## Numbers that have an integer -/

section Represented

variable {o o' : Operand} {a : Affine ℝ} {q y : Tensor ℝ}

/-- The two operands store numbers in the same way. -/
def Operand.SameNumbers (o o' : Operand) : Prop :=
  o.type = o'.type ∧ o.scale = o'.scale ∧ o.zeroPoint = o'.zeroPoint

instance (o o' : Operand) : Decidable (o.SameNumbers o') := inferInstanceAs (Decidable (_ ∧ _))

theorem Operand.SameNumbers.affine (h : o.SameNumbers o') : o.affine = o'.affine := by
  cases o
  cases o'
  obtain ⟨rfl, rfl, rfl⟩ := h
  rfl

/-- What the element type of an affine operand has is an integer of its range. -/
theorem integer_of_holds (ha : o.affine = some a) {v : ℝ} (hv : o.type.storage.Holds v) :
    ∃ n : Int, a.range.Contains n ∧ v = n := by
  have hrange := (OperandType.affineRange_cases (affine_eq_some ha).1).1
  unfold ElementType.Holds at hv
  cases hstorage : o.type.storage <;> rw [hstorage] at hrange hv
  case undefined => cases hrange
  case boolean => cases hrange
  case f16 => cases hrange
  case f32 => cases hrange
  all_goals
    obtain ⟨range, hsome, n, hn, rfl⟩ := hv
    obtain rfl := Option.some.inj (hrange.symm.trans hsome)
    exact ⟨n, hn, rfl⟩

theorem every_loaded (ha : o.affine = some a)
    (hq : ∀ index, Inside q.shape index → o.type.storage.Holds (q.get index)) :
    (q.map fun v => (v - a.zeroPoint) * a.scale).Every a.Represents := by
  apply Tensor.every_of_inside a.represents_zero
  intro index hin
  replace hin : Inside q.shape index := hin
  obtain ⟨n, hn, heq⟩ := integer_of_holds ha (hq index hin)
  rw [Tensor.get_map hin, heq]
  exact ⟨n, hn, rfl⟩

/-- The element types of constants and of parameters are those of the integers. -/
theorem elements_of_affine (ha : o.affine = some a) :
    (∃ T, o.type.constElement = some (o.type.storage, T)) ∧
      NgraphNetworkCreator.parameterType o.type = some o.type.storage := by
  have hrange := (affine_eq_some ha).1
  cases hcase : o.type <;> rw [hcase] at hrange
  all_goals first | exact ⟨⟨_, rfl⟩, rfl⟩ | cases hrange

theorem storable_of_represents (ha : o.affine = some a) {v : ℝ} (h : a.Represents v) :
    Storable a v := by
  obtain ⟨n, hn, rfl⟩ := h
  have hwide := contains_affine ha hn
  have hnarrow := (OperandType.affineRange_cases (affine_eq_some ha).1).2
  have hzero := a.contains_zeroPoint
  unfold Storable
  rw [a.dequantize_div, roundHalfEven_intCast, Int.sub_add_cancel]
  refine ⟨?_, hwide⟩
  simp only [IntRange.Contains, int32Range] at hn hzero ⊢
  omega

/-- **Exactness.**  Numbers that have an integer are stored without a loss. -/
theorem store_exact (ha : o.affine = some a) (h : y.Every a.Represents) :
    ∃ q, o.store y = some q ∧ o.load q = some y := by
  refine ⟨y.map fun v => (a.quantize v : ℝ), ?_, ?_⟩
  · unfold Operand.store
    rw [if_pos (isQuantized_of_affine ha), ha, Option.bind_some,
      if_pos fun index _ => storable_of_represents ha (h index)]
  · rw [load_affine ha, Tensor.map_map]
    refine congrArg some (Eq.trans (Tensor.map_congr fun index _ => ?_) y.map_id)
    exact a.dequantize_quantize (h index)

end Represented

/-! ## Lossless operations -/

/-- The operation makes no numbers, and its outputs store numbers as the inputs do
that it takes them from. -/
structure Operation.Lossless (info : NnapiModelInfo) (operation : Operation) : Prop where
  selects : ∃ ks, operation.type.selected operation.inputs.length = some ks ∧
    ∀ k ∈ ks, ∀ o ∈ operation.outputs,
      (info.getOperand (operation.inputs.getD k 0)).SameNumbers (info.getOperand o)
  plain : operation.type = .maxPool2d → (info.arguments operation fun _ => none).Unactivated
  affine : ∀ o ∈ operation.outputs, (info.getOperand o).type.isQuantized = true →
    (info.getOperand o).affine.isSome = true

theorem written_of_selected {count : Nat} {ks : List Nat}
    (h : operation.type.selected count = some ks) (g : Arguments) :
    info.written operation g = info.single operation (g.result operation.type) := by
  unfold NnapiModelInfo.written
  cases hcase : operation.type <;> rw [hcase] at h
  all_goals first | rfl | cases h

theorem store_plain {o : Operand} {y : Tensor ℝ} (h : o.type.isQuantized = false) :
    o.store y = some y := by
  unfold Operand.store
  rw [h]
  rfl

/-- A constant has entries of its element type. -/
theorem constantValue_holds {i : Nat} {c : ElementType × CType} {q : Tensor ℝ}
    (hc : (info.getOperand i).type.constElement = some c) (h : info.constantValue i = some q) :
    ∀ index, Inside q.shape index → c.1.Holds (q.get index) := by
  unfold NnapiModelInfo.constantValue NnapiModelInfo.getOperandType at h
  rw [hc, Option.bind_some] at h
  obtain ⟨⟨hlength, hall⟩, h⟩ := Option.ite_none_right_eq_some.mp h
  obtain rfl := Option.some.inj h
  intro index hin
  replace hin : Inside (info.getOperand i).dimensions index := hin
  obtain ⟨hlow, hhigh⟩ := flat_bounds hin
  rw [constantTensor, Tensor.get_ofFn hin, List.getD_eq_getElem _ _ (by omega)]
  exact (hall _ (List.getElem_mem _)).2

/-- The numbers of an affine input have integers. -/
theorem Agree.tensor_represented (h : Agree info env real) {k : Nat} {x : Tensor ℝ} {a : Affine ℝ}
    (ha : (info.getOperand (operation.inputs.getD k 0)).affine = some a)
    (hx : (info.arguments operation env).tensor k = some x) : x.Every a.Represents := by
  unfold Arguments.tensor NnapiModelInfo.arguments at hx
  dsimp only at hx
  cases hk : operation.inputs[k]? with
  | none =>
      rw [hk] at hx
      cases hx
  | some i =>
      have hi : operation.inputs.getD k 0 = i := by
        rw [List.getD_eq_getElem?_getD, hk]
        rfl
      rw [hi] at ha hx
      rw [hk, Option.bind_some] at hx
      obtain ⟨q, hq, hload⟩ := Option.bind_eq_some_iff.mp hx
      unfold NnapiModelInfo.storedValue at hq
      cases hconst : info.isOperandLifeTimeConst i with
      | true =>
          rw [if_pos hconst] at hq
          rw [load_affine ha] at hload
          obtain rfl := Option.some.inj hload
          obtain ⟨⟨T, hT⟩, -⟩ := elements_of_affine ha
          exact every_loaded ha (constantValue_holds hT hq)
      | false =>
          rw [hconst, if_neg Bool.false_ne_true] at hq
          apply h.represented i x a hconst ha
          rw [← h.loaded i hconst, hq]
          exact hload

/-! ## Runs -/

/-- The evaluations go on in agreement. -/
theorem Agree.update (h : Agree info env real) {o : Nat} {q y : Tensor ℝ}
    (hload : (info.getOperand o).load q = some y)
    (hrepresented : ∀ a, (info.getOperand o).affine = some a → y.Every a.Represents) :
    Agree info (Function.update env o (some q)) (Function.update real o (some y)) where
  loaded i hi := by
    by_cases hio : i = o
    · subst hio
      rw [Function.update_self, Function.update_self]
      exact hload
    · rw [Function.update_of_ne hio, Function.update_of_ne hio]
      exact h.loaded i hi
  represented i x a hi ha hx := by
    by_cases hio : i = o
    · subst hio
      rw [Function.update_self] at hx
      exact Option.some.inj hx ▸ hrepresented a ha
    · rw [Function.update_of_ne hio] at hx
      exact h.represented i x a hi ha hx

/-- Outputs are no constants. -/
theorem output_not_const (hformed : operation.WellFormed info.mModel) {o : Nat}
    (ho : o ∈ operation.outputs) : (info.getOperand o).lifetime.isConst = false := by
  have hlifetime := (hformed.2 o ho).2
  have hoperand : info.getOperand o = info.mModel.operand o := rfl
  rw [hoperand]
  rw [List.mem_cons, List.mem_singleton] at hlifetime
  rcases hlifetime with h | h <;> rw [h] <;> rfl

/-- What the operation writes stands for what it computes over the real numbers. -/
theorem lossless_written (h : Agree info env real) (hformed : operation.WellFormed info.mModel)
    (hlossless : operation.Lossless info) {values : List (Tensor ℝ)}
    (hvalues : info.asFloat.written operation (info.asFloat.arguments operation real) =
      some values) :
    ∃ o y q, operation.outputs = [o] ∧ values = [y] ∧
      info.written operation (info.arguments operation env) = some [q] ∧
      (info.getOperand o).load q = some y ∧
        ∀ a, (info.getOperand o).affine = some a → y.Every a.Represents := by
  obtain ⟨ks, hselected, hsame⟩ := hlossless.selects
  rw [written_of_selected hselected, (h.alike operation).result hselected] at hvalues
  obtain ⟨o, y, q, houtputs, hy, hstore, rfl⟩ := single_eq_some hvalues
  have ho : o ∈ operation.outputs := houtputs ▸ List.mem_singleton_self o
  have hconst := output_not_const hformed ho
  -- over the real numbers nothing is rounded
  rw [info.asFloat_getOperand, store_plain (Operand.asFloat_plain hconst)] at hstore
  obtain rfl := Option.some.inj hstore
  have hrepresented : ∀ a, (info.getOperand o).affine = some a → y.Every a.Represents := by
    intro a ha
    refine @result_every a.Represents (info.arguments operation env) y operation.type ks
      a.represents_zero hselected hlossless.plain (fun k hk x hx => ?_) hy
    exact h.tensor_represented ((hsame k hk o ho).affine.trans ha) hx
  have hstored : ∃ q, (info.getOperand o).store y = some q ∧
      (info.getOperand o).load q = some y := by
    cases hquantized : (info.getOperand o).type.isQuantized with
    | false => exact ⟨y, store_plain hquantized, load_plain hquantized⟩
    | true =>
        obtain ⟨a, ha⟩ := Option.isSome_iff_exists.mp (hlossless.affine o ho hquantized)
        exact store_exact ha (hrepresented a ha)
  obtain ⟨q, hq, hload⟩ := hstored
  refine ⟨o, y, q, houtputs, rfl, ?_, hload, hrepresented⟩
  rw [written_of_selected hselected, hy]
  unfold NnapiModelInfo.single
  rw [houtputs]
  dsimp only
  rw [Option.bind_some, hq]
  rfl

/-- A step of the model over the real numbers is one of the model. -/
theorem lossless_step (h : Agree info env real) (hformed : operation.WellFormed info.mModel)
    (hlossless : operation.Lossless info)
    (hrun : (info.asFloat.step operation).run real = some real') :
    ∃ env', (info.step operation).run env = some env' ∧ Agree info env' real' := by
  obtain ⟨values, hvalues, -, rfl⟩ := Step.run_eq_some.mp hrun
  obtain ⟨o, y, q, houtputs, rfl, hwritten, hload, hrepresented⟩ :=
    lossless_written h hformed hlossless hvalues
  have htargets : (info.step operation).targets = [o] := houtputs
  have htargets' : (info.asFloat.step operation).targets = [o] := houtputs
  refine ⟨_, Step.run_eq_some.mpr ⟨[q], hwritten, by rw [htargets]; rfl, rfl⟩, ?_⟩
  rw [htargets, htargets']
  exact h.update hload hrepresented

theorem lossless_run {operations : List Operation} (h : Agree info env real)
    (hformed : ∀ operation ∈ operations, operation.WellFormed info.mModel)
    (hlossless : ∀ operation ∈ operations, operation.Lossless info)
    (hrun : run (operations.map info.asFloat.step) real = some real') :
    ∃ env', run (operations.map info.step) env = some env' ∧ Agree info env' real' := by
  induction operations generalizing env real with
  | nil =>
      obtain rfl := Option.some.inj hrun
      exact ⟨env, rfl, h⟩
  | cons operation operations ih =>
      obtain ⟨middle, hstep, hrest⟩ := run_cons.mp hrun
      rw [List.forall_mem_cons] at hformed hlossless
      obtain ⟨next, hnext, hagree⟩ := lossless_step h hformed.1 hlossless.1 hstep
      obtain ⟨env', hlast, hagree'⟩ := ih hagree hformed.2 hlossless.2 hrest
      exact ⟨env', run_cons.mpr ⟨next, hnext, hlast⟩, hagree'⟩

/-! ## Models -/

section Models

variable {inputs reals : Nat → Tensor ℝ}

/-- The inputs are tensors of their operands, and stand for these numbers. -/
def NnapiModelInfo.StandFor (info : NnapiModelInfo) (inputs reals : Nat → Tensor ℝ) : Prop :=
  ∀ i ∈ info.getModelInputIndexes,
    info.Admits i (inputs i) ∧ (info.getOperand i).load (inputs i) = some (reals i)

/-- The numbers of the inputs are admitted in the model over the real numbers. -/
theorem asFloat_admits {i : Nat} (hconst : (info.getOperand i).lifetime.isConst = false)
    (hadmits : info.Admits i (inputs i))
    (hload : (info.getOperand i).load (inputs i) = some (reals i)) :
    info.asFloat.Admits i (reals i) := by
  obtain ⟨hshape, type, htype, hholds⟩ := hadmits
  unfold NnapiModelInfo.Admits
  rw [info.asFloat_getOperand, Operand.asFloat_dimensions]
  cases hquantized : (info.getOperand i).type.isQuantized with
  | false =>
      rw [load_plain hquantized] at hload
      rw [Operand.asFloat_of_plain hquantized, ← Option.some.inj hload]
      exact ⟨hshape, type, htype, hholds⟩
  | true =>
      unfold Operand.load at hload
      rw [if_pos hquantized] at hload
      obtain ⟨a, -, hload⟩ := Option.map_eq_some_iff.mp hload
      have hfloat : (info.getOperand i).asFloat.type = .tensorFloat32 := by
        unfold Operand.asFloat
        rw [if_pos ⟨hquantized, hconst⟩]
      rw [hfloat, ← hload]
      exact ⟨hshape, .f32, rfl, fun _ _ => trivial⟩

theorem agree_inputs (hmodel : info.mModel.WellFormed) (hinputs : info.StandFor inputs reals) :
    Agree info (info.inputEnvironment inputs) (info.asFloat.inputEnvironment reals) := by
  have hindexes : info.asFloat.getModelInputIndexes = info.getModelInputIndexes := rfl
  have hmem : ∀ i ∈ info.getModelInputIndexes,
      info.inputEnvironment inputs i = some (inputs i) ∧
        info.asFloat.inputEnvironment reals i = some (reals i) := by
    intro i hi
    obtain ⟨hadmits, hload⟩ := hinputs i hi
    have hconst : (info.getOperand i).lifetime.isConst = false := by
      have hlifetime : (info.getOperand i).lifetime = .subgraphInput := hmodel.2.2.1 i hi
      rw [hlifetime]
      rfl
    exact ⟨if_pos ⟨hi, hadmits⟩, if_pos ⟨hi, asFloat_admits hconst hadmits hload⟩⟩
  constructor
  · intro i _
    by_cases hi : i ∈ info.getModelInputIndexes
    · rw [(hmem i hi).1, (hmem i hi).2, Option.bind_some, (hinputs i hi).2]
    · unfold NnapiModelInfo.inputEnvironment
      rw [if_neg fun hboth => hi hboth.1, if_neg fun hboth => hi hboth.1]
      rfl
  · intro i x a _ ha hx
    obtain ⟨hi, -, rfl⟩ := inputEnvironment_eq_some hx
    obtain ⟨⟨-, type, htype, hholds⟩, hload⟩ := hinputs i hi
    rw [load_affine ha] at hload
    rw [← Option.some.inj hload]
    apply every_loaded ha
    rw [(elements_of_affine ha).2] at htype
    rw [Option.some.inj htype]
    exact hholds

/-- **Lossless models.**  A graph that is generated from a model whose operations make
no numbers has results that stand for exactly the numbers that the model computes over
the real numbers. -/
theorem generateGraph_lossless {M : Meaning ℝ} {ng : Ngraph} {device : IntelDeviceType}
    (hM : M.Documented) (hng : ng.Infers M) (hfeeds : M.Feeds inputs) (hdevice : device ≠ .vpu)
    (hmodel : info.mModel.WellFormed)
    (hsized : ∀ i ∈ info.getModelInputIndexes,
      NgraphNetworkCreator.zeroSized (info.getOperand i) = false)
    (hlossless : ∀ operation ∈ info.mModel.operations, operation.Lossless info)
    (hinputs : info.StandFor inputs reals) (heval : info.asFloat.evaluate reals = some real)
    {function : NgraphFunction}
    (hgraph : (NgraphNetworkCreator.construct info device).1.generateGraph
      (NgraphNetworkCreator.construct info device).2 ng = .ok (some function)) :
    List.Forall₂ (IsParameter info) function.parameters info.getModelInputIndexes ∧
      List.Forall₂ (fun (result : NodePtr) o => ∃ node x, result = some node ∧ real o = some x ∧
        (info.getOperand o).load (node.denote M 0) = some x) function.results
        ((info.mModel.operations.flatMap (·.outputs)).filter info.isOutput) := by
  obtain ⟨env, hrun, hagree⟩ := lossless_run (agree_inputs hmodel hinputs)
    (fun operation hmem => hmodel.1 operation hmem) hlossless heval
  obtain ⟨houtcome, hparameters, hresults⟩ := generateGraph_eq_some hgraph
  have hcarries := graphRun_carries hM hng hfeeds hdevice hmodel hsized hrun houtcome
  rw [hparameters, hresults]
  refine ⟨hcarries.params.imp fun _ _ h => h.1, ?_⟩
  refine forall₂_imp_of_mem (hcarries.results_denote hrun) fun result o ho hdenotes => ?_
  obtain ⟨node, q, hnode, hq, hdenote⟩ := hdenotes
  have hconst : info.isOperandLifeTimeConst o = false := by
    have hlifetime : (info.getOperand o).lifetime = .subgraphOutput := by
      have hout := (List.mem_filter.mp ho).2
      unfold NnapiModelInfo.isOutput at hout
      exact of_decide_eq_true hout
    rw [NnapiModelInfo.isOperandLifeTimeConst, NnapiModelInfo.getOperandLifetime, hlifetime]
    rfl
  have hloaded := hagree.loaded o hconst
  rw [hq, Option.bind_some] at hloaded
  have hvalue : (real o).isSome = true := by
    apply isSome_of_mem_targets heval
    unfold targets
    rw [List.flatMap_map]
    exact List.mem_of_mem_filter ho
  obtain ⟨x, hx⟩ := Option.isSome_iff_exists.mp hvalue
  exact ⟨node, x, hnode, hx, by rw [hdenote, hloaded, hx]⟩

/-! ### A small quantized model -/

/-- The positive part of two numbers that are stored as multiples of a half. -/
def halvesModel : Model where
  operands :=
    [{ type := .tensorQuant8Asymm, dimensions := [2], scale := 0x3f000000, zeroPoint := 3,
       lifetime := .subgraphInput },
     { type := .tensorQuant8Asymm, dimensions := [2], scale := 0x3f000000, zeroPoint := 3,
       lifetime := .subgraphOutput }]
  operations := [{ type := .relu, inputs := [0], outputs := [1] }]
  inputIndexes := [0]
  outputIndexes := [1]

def halvesInfo : NnapiModelInfo := ⟨halvesModel, []⟩

theorem half_valid : (Scalar.float32 0x3f000000).Finite ∧ 0 < (Scalar.float32 0x3f000000).real := by
  constructor
  · unfold Scalar.Finite FloatFormat.Finite
    decide
  · have hvalue : FloatFormat.binary32.value 0x3f000000 = 1 / 2 := by
      norm_num [FloatFormat.value, FloatFormat.binary32]
    unfold Scalar.real Scalar.value
    rw [hvalue]
    norm_num

/-- How both operands store their numbers. -/
noncomputable def halves : Affine ℝ where
  scale := (Scalar.float32 0x3f000000).real
  zeroPoint := 3
  range := ⟨0, 255, zero_le_byte⟩
  scale_pos := half_valid.2
  contains_zeroPoint := by decide

theorem halves_affine : ∀ i < 2, (halvesInfo.getOperand i).affine = some halves := by
  intro i hi
  match i, hi with
  | 0, _ | 1, _ => exact dif_pos ⟨half_valid.1, half_valid.2, by decide, nofun⟩

/-- What ones in the input stand for. -/
noncomputable def belowZero (i : Nat) : Tensor ℝ :=
  (pairOfOnes i).map fun v => (v - halves.zeroPoint) * halves.scale

theorem halvesInfo_standFor : halvesInfo.StandFor pairOfOnes belowZero := by
  intro i hi
  obtain rfl := List.mem_singleton.mp hi
  refine ⟨⟨rfl, .u8, rfl, fun index hin => ⟨_, rfl, 1, by decide, ?_⟩⟩, ?_⟩
  · replace hin : Inside [2] index := hin
    rw [pairOfOnes, Tensor.get_ofFn hin, Int.cast_one]
  · exact load_affine (halves_affine 0 (by decide)) _

/-- What the operands hold in the model over the real numbers. -/
noncomputable def rectified : Environment (Tensor ℝ) :=
  Function.update (halvesInfo.asFloat.inputEnvironment belowZero) 1
    (some ((belowZero 0).map Entrywise.relu.apply))

theorem halvesInfo_evaluate : halvesInfo.asFloat.evaluate belowZero = some rectified := by
  have hinput : halvesInfo.asFloat.inputEnvironment belowZero 0 = some (belowZero 0) :=
    if_pos ⟨by decide, rfl, .f32, rfl, fun _ _ => trivial⟩
  have hrelu := @run_unary halvesInfo.asFloat (halvesInfo.asFloat.inputEnvironment belowZero)
    .relu .relu 0 1 (belowZero 0) (fun _ => rfl) (congrArg (fun x => x.bind some) hinput)
    definedOn_total rfl
  exact run_cons.mpr ⟨_, hrelu, rfl⟩

theorem halvesInfo_lossless :
    ∀ operation ∈ halvesInfo.mModel.operations, operation.Lossless halvesInfo := by
  intro operation hmem
  obtain rfl := List.mem_singleton.mp hmem
  refine ⟨⟨[0], rfl, by decide⟩, nofun, fun o ho _ => ?_⟩
  obtain rfl := List.mem_singleton.mp ho
  rw [halves_affine 1 (by decide)]
  rfl

/-- Both numbers are negative, and their positive part is stored as it is. -/
theorem halvesInfo_denotes :
    ∃ function, (NgraphNetworkCreator.construct halvesInfo .cpu).1.generateGraph
        (NgraphNetworkCreator.construct halvesInfo .cpu).2
        (.ofMeaning (realReference pairOfOnes)) = .ok (some function) ∧
      List.Forall₂ (IsParameter halvesInfo) function.parameters [0] ∧
      List.Forall₂ (fun (result : NodePtr) o => ∃ node x, result = some node ∧
        rectified o = some x ∧ (halvesInfo.getOperand o).load
          (node.denote (realReference pairOfOnes) 0) = some x) function.results [1] :=
  ⟨_, rfl, generateGraph_lossless realReference_documented (Ngraph.ofMeaning_infers _)
    (fun _ _ _ => rfl) (show IntelDeviceType.cpu ≠ .vpu by decide) (by decide) (by decide)
    halvesInfo_lossless halvesInfo_standFor halvesInfo_evaluate rfl⟩

end Models

end NnHal
