import Mathlib.Data.List.Perm.Basic
import NnHal.GraphMeaning

/-!
# The order of the operations

A model lists its operations in an order in which each reads what earlier ones have
written, and the driver connects them in that order.  Where a model has several such
orders, they give its operands the same values, and so the graphs that are generated
from them the same meaning.
-/

namespace NnHal

open Command Tensors StraightLine

/-! ## Operations as equations -/

section Steps

variable {info : NnapiModelInfo} {operation : Operation} {env env' : Environment (Tensor ℝ)}

/-- The arguments of an operation depend on its inputs only. -/
theorem arguments_congr (h : ∀ i ∈ operation.inputs, env i = env' i) :
    info.arguments operation env = info.arguments operation env' := by
  have hstored : ∀ k : Nat, operation.inputs[k]?.bind (info.storedValue env) =
      operation.inputs[k]?.bind (info.storedValue env') := by
    intro k
    cases hk : operation.inputs[k]? with
    | none => rfl
    | some i =>
        have hi : env i = env' i := h i (List.mem_of_getElem? hk)
        unfold NnapiModelInfo.storedValue
        rw [Option.bind_some, Option.bind_some, hi]
  unfold NnapiModelInfo.arguments
  simp only [hstored]

theorem step_reads (info : NnapiModelInfo) (operation : Operation) :
    (info.step operation).Reads operation.inputs := by
  intro env env' h
  unfold NnapiModelInfo.step
  dsimp only
  rw [arguments_congr h]

theorem targets_map_step (operations : List Operation) :
    targets (operations.map info.step) = operations.flatMap (·.outputs) := by
  unfold targets
  rw [List.flatMap_map]
  rfl

/-- The steps of operations in execution order are ordered. -/
theorem ordered_steps {written : List Nat} {operations : List Operation}
    (horder : info.mModel.orderedFrom written operations = true)
    (hoperations : ∀ operation ∈ operations, operation.WellFormed info.mModel)
    (hnodup : (operations.flatMap (·.outputs)).Nodup)
    (hwritten : ∀ i ∈ written, i ∉ operations.flatMap (·.outputs)) :
    Ordered (operations.map info.step) := by
  induction operations generalizing written with
  | nil => trivial
  | cons operation operations ih =>
      have hall := hoperations
      rw [List.forall_mem_cons] at hoperations
      rw [List.flatMap_cons, List.nodup_append] at hnodup
      obtain ⟨hown, hrest, hdisjoint⟩ := hnodup
      unfold Model.orderedFrom at horder
      rw [Bool.and_eq_true] at horder
      obtain ⟨hinputs, horder⟩ := horder
      have hlater : ∀ o ∈ operation.outputs, o ∉ operations.flatMap (·.outputs) :=
        fun o ho hmem => hdisjoint o ho o hmem rfl
      refine ⟨⟨operation.inputs, step_reads info operation, fun i hi hmem => ?_⟩, hown, ?_, ?_⟩
      · have htargets := @targets_map_step info (operation :: operations)
        rw [List.map_cons] at htargets
        rw [htargets] at hmem
        -- what is written is a temporary or an output, and so written before it is read
        obtain ⟨writer, hwriter, hi'⟩ := List.mem_flatMap.mp hmem
        have hlifetime := ((hall writer hwriter).2 i hi').2
        have hbefore := List.all_eq_true.mp hinputs i hi
        rw [Bool.or_eq_true, decide_eq_true_eq, decide_eq_true_eq] at hbefore
        exact hwritten i (hbefore.resolve_left (not_not.mpr hlifetime)) hmem
      · intro o ho
        rw [targets_map_step]
        exact hlater o ho
      · apply ih horder hoperations.2 hrest
        intro i hi hmem
        rcases List.mem_append.mp hi with hi | hi
        · apply hwritten i hi
          rw [List.flatMap_cons]
          exact List.mem_append_right _ hmem
        · exact hlater i hi hmem

end Steps

/-! ## Models in two orders -/

/-- The model with its operations in another order. -/
def NnapiModelInfo.reordered (info : NnapiModelInfo) (operations : List Operation) :
    NnapiModelInfo :=
  { info with mModel := { info.mModel with operations := operations } }

section Reordered

variable {info : NnapiModelInfo} {operations : List Operation} {env : Environment (Tensor ℝ)}
variable {inputs : Nat → Tensor ℝ}

theorem wellFormed_reordered (hmodel : info.mModel.WellFormed)
    (hperm : operations.Perm info.mModel.operations) :
    (info.reordered operations).mModel.WellFormed := by
  obtain ⟨hoperations, hoperands, hinputs, houtputs, hnodup⟩ := hmodel
  refine ⟨fun operation hmem => ?_, hoperands, hinputs, houtputs, ?_⟩
  · exact hoperations operation (hperm.mem_iff.mp hmem)
  · exact (hperm.flatMap_right _).nodup_iff.mpr hnodup

theorem ordered_of_inExecutionOrder (hmodel : info.mModel.WellFormed)
    (horder : info.mModel.InExecutionOrder) : Ordered (info.mModel.operations.map info.step) :=
  ordered_steps horder hmodel.1 hmodel.2.2.2.2 nofun

/-- The operands have the same values in both orders. -/
theorem evaluate_reordered (hmodel : info.mModel.WellFormed)
    (horder : info.mModel.InExecutionOrder) (hperm : operations.Perm info.mModel.operations)
    (horder' : (info.reordered operations).mModel.InExecutionOrder)
    (heval : info.evaluate inputs = some env) :
    (info.reordered operations).evaluate inputs = some env := by
  have hordered := ordered_of_inExecutionOrder hmodel horder
  have hordered' := ordered_of_inExecutionOrder (wellFormed_reordered hmodel hperm) horder'
  exact run_perm (hperm.map info.step) hordered hordered' heval

/-! ## Graphs of two orders -/

variable {M : Meaning ℝ} {ng : Ngraph} {device : IntelDeviceType}

/-- Two results denote the same tensor. -/
def SameMeaning (M : Meaning ℝ) (result result' : NodePtr) : Prop :=
  ∃ node node' : Node, result = some node ∧ result' = some node' ∧
    node.denote M 0 = node'.denote M 0

/-- Results of the same operands have the same meaning. -/
theorem forall₂_sameMeaning {results results' : List NodePtr} {os : List Nat}
    (h : List.Forall₂ (ResultDenotes M env) results os)
    (h' : List.Forall₂ (flip (ResultDenotes M env)) os results') :
    List.Forall₂ (SameMeaning M) results results' := by
  induction h generalizing results' with
  | nil =>
      cases h'
      exact .nil
  | cons hfirst _ ih =>
      cases h' with
      | cons hfirst' hrest' =>
          obtain ⟨node, x, hnode, hx, hdenote⟩ := hfirst
          obtain ⟨node', x', hnode', hx', hdenote'⟩ := hfirst'
          obtain rfl := Option.some.inj (hx.symm.trans hx')
          exact .cons ⟨node, node', hnode, hnode', hdenote.trans hdenote'.symm⟩ (ih hrest')

theorem isParameter_leftUnique : Relator.LeftUnique (IsParameter info) :=
  fun _ _ _ h h' => isParameter_unique h h'

/-- **Order.**  Graphs that are generated from a model in two orders have the same
parameters, and the results of one have the meaning of those of the other, which come
in another order. -/
theorem generateGraph_reordered (hM : M.Documented) (hng : ng.Infers M) (hfeeds : M.Feeds inputs)
    (hdevice : device ≠ .vpu) (hmodel : info.mModel.WellFormed)
    (horder : info.mModel.InExecutionOrder) (hperm : operations.Perm info.mModel.operations)
    (horder' : (info.reordered operations).mModel.InExecutionOrder)
    (hsized : ∀ i ∈ info.getModelInputIndexes,
      NgraphNetworkCreator.zeroSized (info.getOperand i) = false)
    (heval : info.evaluate inputs = some env) {function function' : NgraphFunction}
    (hgraph : (NgraphNetworkCreator.construct info device).1.generateGraph
      (NgraphNetworkCreator.construct info device).2 ng = .ok (some function))
    (hgraph' : (NgraphNetworkCreator.construct (info.reordered operations) device).1.generateGraph
      (NgraphNetworkCreator.construct (info.reordered operations) device).2 ng =
        .ok (some function')) :
    function'.parameters = function.parameters ∧ ∃ results, results.Perm function'.results ∧
      List.Forall₂ (SameMeaning M) function.results results := by
  have hmodel' := wellFormed_reordered hmodel hperm
  have heval' := evaluate_reordered hmodel horder hperm horder' heval
  obtain ⟨hrun, hparameters, hresults⟩ := generateGraph_eq_some hgraph
  obtain ⟨hrun', hparameters', hresults'⟩ := generateGraph_eq_some hgraph'
  have hcarries := graphRun_carries hM hng hfeeds hdevice hmodel hsized heval hrun
  have hcarries' := graphRun_carries hM hng hfeeds hdevice hmodel' hsized heval' hrun'
  constructor
  · rw [hparameters, hparameters']
    have hparams := hcarries.params.imp fun _ _ h => h.1
    have hparams' : List.Forall₂ (IsParameter info) _ info.getModelInputIndexes :=
      hcarries'.params.imp fun _ _ h => h.1
    exact List.left_unique_forall₂' isParameter_leftUnique hparams' hparams
  · have hall := hcarries.results_denote heval
    have hall' := hcarries'.results_denote heval'
    rw [← hresults] at hall
    rw [← hresults'] at hall'
    have houtputs : ((info.mModel.operations.flatMap (·.outputs)).filter info.isOutput).Perm
        ((operations.flatMap (·.outputs)).filter info.isOutput) :=
      ((hperm.flatMap_right _).filter _).symm
    obtain ⟨results, hflip, hresultsPerm⟩ := List.perm_comp_forall₂ houtputs hall'.flip
    exact ⟨results, hresultsPerm, forall₂_sameMeaning hall hflip⟩

/-! ### Two operations on one input -/

/-- A model with the absolute value and the positive part of its input. -/
def forkModel : Model where
  operands :=
    [{ type := .tensorFloat32, dimensions := [2], lifetime := .subgraphInput },
     { type := .tensorFloat32, dimensions := [2], lifetime := .subgraphOutput },
     { type := .tensorFloat32, dimensions := [2], lifetime := .subgraphOutput }]
  operations :=
    [{ type := .abs, inputs := [0], outputs := [1] },
     { type := .relu, inputs := [0], outputs := [2] }]
  inputIndexes := [0]
  outputIndexes := [1, 2]

def forkInfo : NnapiModelInfo := ⟨forkModel, []⟩

/-- A function of the entries of an operand that is not quantized, written to
another such. -/
theorem run_unary {type : OperationType} {f : Entrywise} {i o : Nat} {x : Tensor ℝ}
    (hwritten : ∀ g, info.written ⟨type, [i], [o]⟩ g =
      info.single ⟨type, [i], [o]⟩ (g.unary f))
    (hx : (info.arguments ⟨type, [i], [o]⟩ env).tensor 0 = some x) (hf : f.DefinedOn x)
    (ho : (info.getOperand o).type.isQuantized = false) :
    (info.step ⟨type, [i], [o]⟩).run env =
      some (Function.update env o (some (x.map f.apply))) := by
  refine Step.run_eq_some.mpr ⟨[x.map f.apply], ?_, rfl, rfl⟩
  have hunary : (info.arguments ⟨type, [i], [o]⟩ env).unary f = some (x.map f.apply) := by
    unfold Arguments.unary
    rw [hx, Option.bind_some, if_pos hf]
  have hstore : (info.getOperand o).store (x.map f.apply) = some (x.map f.apply) := by
    unfold Operand.store
    rw [ho]
    rfl
  unfold NnapiModelInfo.step
  dsimp only
  rw [hwritten, hunary, NnapiModelInfo.single]
  dsimp only
  rw [Option.bind_some, hstore]
  rfl

/-- What the operands of the model hold. -/
noncomputable def forkValues : Environment (Tensor ℝ) :=
  Function.update (Function.update (forkInfo.inputEnvironment pairOfOnes) 1
    (some ((pairOfOnes 0).map Entrywise.abs.apply))) 2
    (some ((pairOfOnes 0).map Entrywise.relu.apply))

theorem forkInfo_evaluate : forkInfo.evaluate pairOfOnes = some forkValues := by
  have hinput : forkInfo.inputEnvironment pairOfOnes 0 = some (pairOfOnes 0) :=
    if_pos ⟨by decide, rfl, .f32, rfl, fun _ _ => trivial⟩
  have habs := @run_unary forkInfo (forkInfo.inputEnvironment pairOfOnes) .abs .abs 0 1
    (pairOfOnes 0) (fun _ => rfl) (congrArg (fun x => x.bind some) hinput) definedOn_total rfl
  have hrelu := @run_unary forkInfo (Function.update (forkInfo.inputEnvironment pairOfOnes) 1
    (some ((pairOfOnes 0).map Entrywise.abs.apply))) .relu .relu 0 2 (pairOfOnes 0) (fun _ => rfl)
    (congrArg (fun x => x.bind some) hinput) definedOn_total rfl
  exact run_cons.mpr ⟨_, habs, run_cons.mpr ⟨_, hrelu, rfl⟩⟩

/-- The two orders of the two operations. -/
theorem forkInfo_reordered : ∃ function function',
    (NgraphNetworkCreator.construct forkInfo .cpu).1.generateGraph
      (NgraphNetworkCreator.construct forkInfo .cpu).2
      (.ofMeaning (realReference pairOfOnes)) = .ok (some function) ∧
    (NgraphNetworkCreator.construct (forkInfo.reordered forkModel.operations.reverse)
      .cpu).1.generateGraph
      (NgraphNetworkCreator.construct (forkInfo.reordered forkModel.operations.reverse) .cpu).2
      (.ofMeaning (realReference pairOfOnes)) = .ok (some function') ∧
    function'.parameters = function.parameters ∧ ∃ results, results.Perm function'.results ∧
      List.Forall₂ (SameMeaning (realReference pairOfOnes)) function.results results :=
  ⟨_, _, rfl, rfl, generateGraph_reordered realReference_documented (Ngraph.ofMeaning_infers _)
    (fun _ _ _ => rfl) (show IntelDeviceType.cpu ≠ .vpu by decide) (by decide) (by decide)
    (List.reverse_perm _) (by decide) (by decide) forkInfo_evaluate rfl rfl⟩

end Reordered

end NnHal
