import NnHal.LosslessModels

/-!
# Quantized values are the nearest ones

Every quantized operand of a model holds integers of its range.  Where an operation
writes it, they stand for the numbers of the range that are nearest to what the
operation computes from the values of its inputs, and the node that the operand is
bound to denotes them.
-/

namespace NnHal

open Command Tensors Quantization StraightLine

/-! ## Nearest integers -/

/-- Integers that stand for the nearest numbers to these. -/
structure NearestIntegers (a : Affine ℝ) (q y : Tensor ℝ) : Prop where
  shape : q.shape = y.shape
  entries : ∀ index, Inside y.shape index → ∃ n : Int, a.range.Contains n ∧ q.get index = n ∧
    ∀ m, a.range.Contains m →
      |a.dequantize n - y.get index| ≤ |a.dequantize m - y.get index|

variable {info : NnapiModelInfo} {env : Environment (Tensor ℝ)} {operation : Operation}

theorem store_nearest {o : Operand} {a : Affine ℝ} {q y : Tensor ℝ} (ha : o.affine = some a)
    (h : o.store y = some q) : NearestIntegers a q y := by
  rcases store_eq_some h with ⟨hplain, -⟩ | ⟨b, hb, -, rfl⟩
  · rw [isQuantized_of_affine ha] at hplain
    cases hplain
  · obtain rfl := Option.some.inj (hb.symm.trans ha)
    refine ⟨rfl, fun index hin => ⟨b.quantize (y.get index), b.range.contains_clamp _, ?_, ?_⟩⟩
    · exact Tensor.get_map hin
    · exact fun m hm => b.quantize_nearest _ hm

/-! ## Every operation of a model -/

/-- What an operation computes before its output is stored. -/
noncomputable def NnapiModelInfo.computed (info : NnapiModelInfo)
    (env : Environment (Tensor ℝ)) (operation : Operation) : Option (Tensor ℝ) :=
  if operation.type = .quantize then (info.arguments operation env).tensor 0
  else (info.arguments operation env).result operation.type

/-- What is written besides the parts of a split is what is computed, as it is stored. -/
theorem written_eq_some {values : List (Tensor ℝ)} (htype : operation.type ≠ .split)
    (h : info.written operation (info.arguments operation env) = some values) :
    ∃ o y q, operation.outputs = [o] ∧ info.computed env operation = some y ∧
      (info.getOperand o).store y = some q ∧ values = [q] := by
  unfold NnapiModelInfo.computed
  by_cases hquantize : operation.type = .quantize
  · unfold NnapiModelInfo.written at h
    rw [hquantize] at h
    rw [if_pos hquantize]
    exact single_eq_some (Option.ite_none_right_eq_some.mp h).2
  · rw [if_neg hquantize]
    have hwritten : info.written operation (info.arguments operation env) =
        info.single operation ((info.arguments operation env).result operation.type) := by
      unfold NnapiModelInfo.written
      split
      · next hsplit => exact absurd hsplit htype
      · next hsplit => exact absurd hsplit hquantize
      · rfl
    exact single_eq_some (hwritten.symm.trans h)

section Graphs

variable {M : Meaning ℝ} {ng : Ngraph} {device : IntelDeviceType} {inputs : Nat → Tensor ℝ}

/-- **Rounding.**  After a graph generation every quantized operand that an operation
has written, except the parts of a split, is bound to a node of the nearest integers to
what the operation computes from the values of the model. -/
theorem graphRun_nearest (hM : M.Documented) (hng : ng.Infers M) (hfeeds : M.Feeds inputs)
    (hdevice : device ≠ .vpu) (hmodel : info.mModel.WellFormed)
    (horder : info.mModel.InExecutionOrder)
    (hsized : ∀ i ∈ info.getModelInputIndexes,
      NgraphNetworkCreator.zeroSized (info.getOperand i) = false)
    (heval : info.evaluate inputs = some env)
    (hrun : (NgraphNetworkCreator.graphRun info device ng).outcome = .ok true) :
    ∀ operation ∈ info.mModel.operations, operation.type ≠ .split →
      ∀ o ∈ operation.outputs, ∀ a, (info.getOperand o).affine = some a →
        ∃ node y, (NgraphNetworkCreator.graphRun info device ng).state.mOutputAtOperandIndex o =
            some (node, 0) ∧ info.computed env operation = some y ∧
          NearestIntegers a (node.denote M 0) y := by
  intro operation hmem htype o ho a ha
  have hcarries := graphRun_carries hM hng hfeeds hdevice hmodel hsized heval hrun
  -- the values of the operands solve the equations of the operations
  have hsolution := run_solution (ordered_of_inExecutionOrder hmodel horder) heval
  obtain ⟨values, hvalues, hheld⟩ :=
    hsolution.solves (info.step operation) (List.mem_map_of_mem hmem)
  obtain ⟨o', y, q, houtputs, hy, hstore, rfl⟩ := written_eq_some htype hvalues
  have htargets : (info.step operation).targets = [o'] := houtputs
  rw [houtputs] at ho
  obtain rfl := List.mem_singleton.mp ho
  rw [htargets] at hheld
  obtain ⟨hq, -⟩ := List.forall₂_cons.mp hheld
  obtain ⟨⟨node, k⟩, hbound, hk, hdenote⟩ := hcarries.denote o q hq
  obtain rfl : k = 0 := hk
  have hdenoted : node.denote M 0 = q := hdenote
  refine ⟨node, y, hbound, hy, ?_⟩
  rw [hdenoted]
  exact store_nearest ha hstore

/-- The output of the small quantized model. -/
theorem halvesInfo_nearest : ∃ env node y,
    (NgraphNetworkCreator.graphRun halvesInfo .cpu
      (.ofMeaning (realReference pairOfOnes))).state.mOutputAtOperandIndex 1 = some (node, 0) ∧
    halvesInfo.computed env ⟨.relu, [0], [1]⟩ = some y ∧
      NearestIntegers halves (node.denote (realReference pairOfOnes) 0) y := by
  obtain ⟨env, heval, -⟩ := lossless_run
    (agree_inputs (by decide) halvesInfo_standFor) (by decide) halvesInfo_lossless
    halvesInfo_evaluate
  exact ⟨env, graphRun_nearest realReference_documented (Ngraph.ofMeaning_infers _)
    (fun _ _ _ => rfl) (show IntelDeviceType.cpu ≠ .vpu by decide) (by decide) (by decide)
    (by decide) heval rfl ⟨.relu, [0], [1]⟩ List.mem_cons_self nofun 1 List.mem_cons_self halves
    (halves_affine 1 (by decide))⟩

end Graphs

end NnHal
