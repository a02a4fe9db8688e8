import NnHal.RealMeanings
import NnHal.ResultNodes

/-!
# Connecting an operation

What an operation leaves in the node table: nodes that denote its outputs, bound
to their operands, and those of the model among the results.
-/

namespace NnHal

open Command Tensors Quantization StraightLine

variable {M : Meaning ℝ} {ng : Ngraph} {info : NnapiModelInfo}
variable {nodes nodes' nodes'' : NgraphNodes} {env : Environment (Tensor ℝ)}
variable {os : List Nat} {ns : List Node} {qs : List (Tensor ℝ)}

/-- A node registered as a result denotes the value of its operand. -/
def ResultDenotes (M : Meaning ℝ) (env : Environment (Tensor ℝ)) (result : NodePtr) (o : Nat) :
    Prop :=
  ∃ node x, result = some node ∧ env o = some x ∧ node.denote M 0 = x

/-- The nodes of the outputs of the model. -/
def modelResults (info : NnapiModelInfo) (os : List Nat) (ns : List Node) : List NodePtr :=
  ((os.zip ns).filter fun o => info.isOutput o.1).map fun o => some o.2

theorem modelResults_cons {o : Nat} {node : Node} :
    modelResults info (o :: os) (node :: ns) =
      (if info.isOutput o then [some node] else []) ++ modelResults info os ns := by
  unfold modelResults
  rw [List.zip_cons_cons, List.filter_cons]
  split <;> rfl

/-- The operands are bound to these nodes, in this order, and nothing else has
happened. -/
structure Connects (info : NnapiModelInfo) (nodes nodes' : NgraphNodes) (os : List Nat)
    (ns : List Node) : Prop where
  bound : nodes'.mOutputAtOperandIndex =
    Environment.assign nodes.mOutputAtOperandIndex os (ns.map fun node => (node, 0))
  results : nodes'.mResultNodes = nodes.mResultNodes ++ modelResults info os ns
  params : nodes'.mInputParams = nodes.mInputParams
  names : nodes'.mNodeNames = nodes.mNodeNames

namespace Connects

theorem nil : Connects info nodes nodes [] [] := ⟨rfl, (List.append_nil _).symm, rfl, rfl⟩

/-- One output after the other. -/
theorem cons {o : Nat} {node : Node}
    (hfirst : Connects info nodes nodes' [o] [node])
    (hrest : Connects info nodes' nodes'' os ns) :
    Connects info nodes nodes'' (o :: os) (node :: ns) where
  bound := by
    rw [hrest.bound, hfirst.bound]
    rfl
  results := by
    rw [hrest.results, hfirst.results, modelResults_cons, modelResults_cons, List.append_assoc,
      List.append_assoc]
    rfl
  params := hrest.params.trans hfirst.params
  names := hrest.names.trans hfirst.names

/-- The table stays in step with the environment. -/
theorem denote (h : Connects info nodes nodes' os ns) (hnodes : nodes.Denote M env)
    (hns : List.Forall₂ (fun node q => node.denote M 0 = q) ns qs) :
    nodes'.Denote M (env.assign os qs) := by
  unfold NgraphNodes.Denote
  rw [h.bound]
  apply hnodes.assign
  rw [List.forall₂_map_left_iff]
  exact hns.imp fun _ _ hq => ⟨rfl, hq⟩

end Connects

/-- The node of a result is the one its operand is bound to. -/
def NgraphNodes.Binds (nodes : NgraphNodes) (result : NodePtr) (o : Nat) : Prop :=
  ∃ node, result = some node ∧ nodes.mOutputAtOperandIndex o = some (node, 0)

theorem resultDenotes_of_binds (hnodes : nodes.Denote M env) {result : NodePtr} {o : Nat}
    (hbinds : nodes.Binds result o) (ho : (env o).isSome = true) :
    ResultDenotes M env result o := by
  obtain ⟨node, rfl, hnode⟩ := hbinds
  obtain ⟨x, hx⟩ := Option.isSome_iff_exists.mp ho
  obtain ⟨output, houtput, -, hdenote⟩ := hnodes o x hx
  obtain rfl := Option.some.inj (hnode.symm.trans houtput)
  exact ⟨node, x, rfl, hx, hdenote⟩

theorem modelResults_bound {table : Environment Output} (hnodup : os.Nodup)
    (hlength : ns.length = os.length) :
    List.Forall₂ (fun (result : NodePtr) o => ∃ node, result = some node ∧
      table.assign os (ns.map fun node => (node, 0)) o = some (node, 0))
      (modelResults info os ns) (os.filter info.isOutput) := by
  induction os generalizing table ns with
  | nil =>
      obtain rfl := List.length_eq_zero_iff.mp hlength
      exact .nil
  | cons o os ih =>
      cases ns with
      | nil => cases hlength
      | cons node ns =>
          obtain ⟨ho, hos⟩ := List.nodup_cons.mp hnodup
          have hrest := @ih ns (Function.update table o (some (node, 0))) hos
            (Nat.succ.inj hlength)
          rw [modelResults_cons, List.map_cons, assign_cons, List.filter_cons]
          by_cases hout : info.isOutput o = true
          · rw [if_pos hout, if_pos hout]
            refine .cons ⟨node, rfl, ?_⟩ hrest
            rw [assign_of_notMem ho, Function.update_self]
          · rw [if_neg hout, if_neg hout]
            exact hrest

namespace Connects

/-- The results of an operation are the nodes its outputs are bound to. -/
theorem binds (h : Connects info nodes nodes' os ns) (hnodup : os.Nodup)
    (hlength : ns.length = os.length) :
    List.Forall₂ nodes'.Binds (modelResults info os ns) (os.filter info.isOutput) := by
  unfold NgraphNodes.Binds
  rw [h.bound]
  exact modelResults_bound hnodup hlength

/-- Other operands stay bound as they are. -/
theorem bound_of_notMem (h : Connects info nodes nodes' os ns) {i : Nat} (hi : i ∉ os) :
    nodes'.mOutputAtOperandIndex i = nodes.mOutputAtOperandIndex i := by
  rw [h.bound]
  exact assign_of_notMem hi

end Connects

/-! ## The two ways to bind an output -/

variable {self : OperationsBase} {node : Node} {o : Nat}

/-- The outputs that a program connects denote these tensors. -/
def OperationsBase.ConnectsTo (base : OperationsBase) (ng : Ngraph) (M : Meaning ℝ)
    (nodes : NgraphNodes) (p : Gen Unit) (os : List Nat) (qs : List (Tensor ℝ)) : Prop :=
  Ends (answer ng) nodes p fun _ nodes' => ∃ ns, Connects base.sModelInfo nodes nodes' os ns ∧
    List.Forall₂ (fun node q => node.denote M 0 = q) ns qs

theorem connects_setOperationOutput :
    Ends (answer ng) nodes (self.setOperationOutput o (some node)) fun _ nodes' =>
      Connects self.sModelInfo nodes nodes' [o] [node] := by
  unfold OperationsBase.setOperationOutput OperationsBase.addModelOutput
  by_cases hout : (self.sModelInfo.getOperand o).lifetime = .subgraphOutput
  · rw [if_pos hout]
    refine fun _ _ => ⟨rfl, ?_, rfl, rfl⟩
    rw [modelResults_cons, NnapiModelInfo.isOutput, if_pos (decide_eq_true hout)]
    rfl
  · rw [if_neg hout]
    refine fun _ _ => ⟨rfl, ?_, rfl, rfl⟩
    rw [modelResults_cons, NnapiModelInfo.isOutput, if_neg (by simpa using hout)]
    exact (List.append_nil _).symm

/-- What is stored, as one of two cases. -/
theorem store_eq_some {operand : Operand} {y q : Tensor ℝ} (h : operand.store y = some q) :
    (operand.type.isQuantized = false ∧ q = y) ∨ (∃ a, operand.affine = some a ∧
      (∀ index, Inside y.shape index → Storable a (y.get index)) ∧
        q = y.map fun v => (a.quantize v : ℝ)) := by
  unfold Operand.store at h
  split at h
  · obtain ⟨a, ha, h⟩ := Option.bind_eq_some_iff.mp h
    split at h
    · next hstorable => exact .inr ⟨a, ha, hstorable, (Option.some.inj h).symm⟩
    · cases h
  · next hquantized => exact .inl ⟨by simpa using hquantized, (Option.some.inj h).symm⟩

/-- The node of the default connection denotes what the operand stores. -/
theorem returns_connected (hM : M.Computable) {index : Nat} {y q : Tensor ℝ}
    (hnode : node.denote M 0 = y) (hstore : (self.sModelInfo.getOperand index).store y = some q) :
    Returns (answer ng) nodes
      (match self.sModelInfo.getOperandType index with
      | .tensorQuant8Asymm => self.quantizeNode node index .u8
      | .tensorQuant8AsymmSigned | .tensorQuant8Symm => self.quantizeNode node index .i8
      | .tensorQuant16Asymm => self.quantizeNode node index .u16
      | .tensorQuant16Symm => self.quantizeNode node index .i16
      | _ => pure node)
      fun r => r.denote M 0 = q := by
  have htype : self.sModelInfo.getOperandType index = (self.sModelInfo.getOperand index).type := rfl
  rw [htype]
  rcases store_eq_some hstore with ⟨hplain, rfl⟩ | ⟨a, ha, hstorable, rfl⟩
  · cases hcase : (self.sModelInfo.getOperand index).type <;> rw [hcase] at hplain
    all_goals first | exact returns_pure hnode | cases hplain
  · have hstored := @returns_stored M ng nodes self index a hM ha node y hnode hstorable
    have hrange := (affine_eq_some ha).1
    cases hcase : (self.sModelInfo.getOperand index).type <;> rw [hcase] at hrange hstored
    all_goals first | exact hstored | cases hrange

/-- The default connection binds the node, and registers it where its operand is a
model output. -/
theorem connectDefault_connects (hM : M.Computable) {createNode : Gen Node} {y q : Tensor ℝ}
    (hcreate : Returns (answer ng) nodes createNode fun node => node.denote M 0 = y)
    (hstore : (self.sModelInfo.getOperand self.mDefaultOutputIndex).store y = some q) :
    self.ConnectsTo ng M nodes (self.connectDefault createNode) [self.mDefaultOutputIndex] [q] := by
  unfold OperationsBase.ConnectsTo OperationsBase.connectDefault
  refine hcreate.bind_ends fun node hnode => ?_
  refine (returns_connected hM hnode hstore).bind_ends fun stored hstored => ?_
  unfold OperationsBase.addModelOutput
  by_cases hout : (self.sModelInfo.getOperand self.mDefaultOutputIndex).lifetime = .subgraphOutput
  · rw [if_pos hout]
    refine fun _ _ => ⟨[stored], ⟨rfl, ?_, rfl, rfl⟩, .cons hstored .nil⟩
    rw [modelResults_cons, NnapiModelInfo.isOutput, if_pos (decide_eq_true hout)]
    rfl
  · rw [if_neg hout]
    refine fun _ _ => ⟨[stored], ⟨rfl, ?_, rfl, rfl⟩, .cons hstored .nil⟩
    rw [modelResults_cons, NnapiModelInfo.isOutput, if_neg (by simpa using hout)]
    exact (List.append_nil _).symm

end NnHal
