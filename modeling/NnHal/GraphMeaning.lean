import NnHal.NnapiModels
import NnHal.RealReference

/-!
# The graph means what the model means

Every class that has a result builds a node that denotes it, and connects it to
the graph as its operand stores it.  Connecting the operations one after the
other keeps the node table in step with the evaluation of the model, so the
results of a generated graph denote the values of the model outputs.
-/

namespace NnHal

open Command Tensors Quantization StraightLine

/-! ## One operation -/

section Operation

variable {M : Meaning ℝ} {ng : Ngraph} {nodes : NgraphNodes} {self : OperationsBase}
variable {g : Arguments} {y : Tensor ℝ} {qs : List (Tensor ℝ)}

theorem entrywise_clamp_relu1 :
    NodeOp.entrywise (.clamp (.int (-1)) (.int 1)) = some Entrywise.relu1 := by
  simp [NodeOp.entrywise, Entrywise.relu1]

theorem entrywise_clamp_relu6 :
    NodeOp.entrywise (.clamp (.int 0) (.int 6)) = some Entrywise.relu6 := by
  simp [NodeOp.entrywise, Entrywise.relu6]

/-- Away from the VPU `Add` is like the other three. -/
theorem Add.createNodeForPlugin_denotes (hM : M.Documented) (hg : self.Meets ng M nodes g)
    (hdevice : self.sPluginType ≠ .vpu) (h : g.activated .add = some y) :
    Returns (answer ng) nodes (Add.createNodeForPlugin self) fun node => node.denote M 0 = y := by
  unfold Add.createNodeForPlugin
  rw [if_neg hdevice]
  exact activatedNode_denotes hM.toComputable hg .add rfl h

/-- The class of an operation with a result keeps the default connection, and its
node denotes the result. -/
theorem class_denotes (hM : M.Documented) (hng : ng.Infers M) (hg : self.Meets ng M nodes g)
    (hdevice : self.sPluginType ≠ .vpu) {type : OperationType} (h : g.result type = some y) :
    ∃ cls createNode, OperationsFactory.getOperation type = some cls ∧
      cls.connectOperationToGraph self = self.connectDefault createNode ∧
        Returns (answer ng) nodes createNode fun node => node.denote M 0 = y := by
  have hc := hM.toComputable
  have hr := hM.toRearranges
  have hl := hM.toComputesLayers
  cases type
  case abs => exact ⟨_, _, rfl, rfl, unaryNode_denotes hc hg .abs rfl h⟩
  case add => exact ⟨_, _, rfl, rfl, Add.createNodeForPlugin_denotes hM hg hdevice h⟩
  case averagePool2d => exact ⟨_, _, rfl, rfl, AveragePool2D.createNode_denotes hc hl hg h⟩
  case channelShuffle => exact ⟨_, _, rfl, rfl, ChannelShuffle.createNode_denotes hc hr hg h⟩
  case concatenation => exact ⟨_, _, rfl, rfl, Concat.createNode_denotes hr hg h⟩
  case conv2d => exact ⟨_, _, rfl, rfl, Conv2d.createNode_denotes hc hl hng hg h⟩
  case depthToSpace => exact ⟨_, _, rfl, rfl, DepthToSpace.createNode_denotes hc hr hg h⟩
  case depthwiseConv2d =>
      exact ⟨_, _, rfl, rfl, DepthwiseConv2d.createNode_denotes hc hl hng hg h⟩
  case dequantize => exact ⟨_, _, rfl, rfl, Dequantize.createNode_denotes hc hg h⟩
  case div => exact ⟨_, _, rfl, rfl, activatedNode_denotes hc hg .divide rfl h⟩
  case embeddingLookup => exact ⟨_, _, rfl, rfl, EmbeddingLookup.createNode_denotes hc hr hg h⟩
  case equal => exact ⟨_, _, rfl, rfl, binaryNode_denotes hc hg .equal rfl h⟩
  case exp => exact ⟨_, _, rfl, rfl, unaryNode_denotes hc hg .exp rfl h⟩
  case expandDims => exact ⟨_, _, rfl, rfl, ExpandDims.createNode_denotes hc hr hg h⟩
  case fullyConnected => exact ⟨_, _, rfl, rfl, FullyConnected.createNode_denotes hc hl hg h⟩
  case floor => exact ⟨_, _, rfl, rfl, unaryNode_denotes hc hg .floor rfl h⟩
  case gather => exact ⟨_, _, rfl, rfl, Gather.createNode_denotes hc hr hg h⟩
  case greater => exact ⟨_, _, rfl, rfl, binaryNode_denotes hc hg .greater rfl h⟩
  case greaterEqual => exact ⟨_, _, rfl, rfl, binaryNode_denotes hc hg .greaterEqual rfl h⟩
  case hardSwish => exact ⟨_, _, rfl, rfl, unaryNode_denotes hc hg .hSwish rfl h⟩
  case l2Normalization => exact ⟨_, _, rfl, rfl, L2Normalization.createNode_denotes hc hg h⟩
  case l2Pool2d => exact ⟨_, _, rfl, rfl, L2Pooling2D.createNode_denotes hc hl hg h⟩
  case less => exact ⟨_, _, rfl, rfl, binaryNode_denotes hc hg .less rfl h⟩
  case lessEqual => exact ⟨_, _, rfl, rfl, binaryNode_denotes hc hg .lessEqual rfl h⟩
  case logSoftmax => exact ⟨_, _, rfl, rfl, LogSoftmax.createNode_denotes hc hg h⟩
  case log => exact ⟨_, _, rfl, rfl, unaryNode_denotes hc hg .log rfl h⟩
  case logicalAnd => exact ⟨_, _, rfl, rfl, binaryNode_denotes hc hg .logicalAnd rfl h⟩
  case logicalNot => exact ⟨_, _, rfl, rfl, unaryNode_denotes hc hg .logicalNot rfl h⟩
  case logicalOr => exact ⟨_, _, rfl, rfl, binaryNode_denotes hc hg .logicalOr rfl h⟩
  case logistic => exact ⟨_, _, rfl, rfl, unaryNode_denotes hc hg .sigmoid rfl h⟩
  case maximum => exact ⟨_, _, rfl, rfl, binaryNode_denotes hc hg .maximum rfl h⟩
  case maxPool2d => exact ⟨_, _, rfl, rfl, MaxPool2d.createNode_denotes hc hl hg h⟩
  case mean => exact ⟨_, _, rfl, rfl, Mean.createNode_denotes hc hg h⟩
  case minimum => exact ⟨_, _, rfl, rfl, binaryNode_denotes hc hg .minimum rfl h⟩
  case mul => exact ⟨_, _, rfl, rfl, activatedNode_denotes hc hg .multiply rfl h⟩
  case neg => exact ⟨_, _, rfl, rfl, unaryNode_denotes hc hg .negative rfl h⟩
  case notEqual => exact ⟨_, _, rfl, rfl, binaryNode_denotes hc hg .notEqual rfl h⟩
  case pad => exact ⟨_, _, rfl, rfl, Pad.createNode_denotes hc hr hg h⟩
  case padV2 => exact ⟨_, _, rfl, rfl, PadV2.createNode_denotes hc hr hg h⟩
  case pow => exact ⟨_, _, rfl, rfl, binaryNode_denotes hc hg .power rfl h⟩
  case reduceAll => exact ⟨_, _, rfl, rfl, reduceNode_denotes hc hg _ (fun _ => rfl) h⟩
  case reduceAny => exact ⟨_, _, rfl, rfl, reduceNode_denotes hc hg _ (fun _ => rfl) h⟩
  case reduceMax => exact ⟨_, _, rfl, rfl, reduceNode_denotes hc hg _ (fun _ => rfl) h⟩
  case reduceMin => exact ⟨_, _, rfl, rfl, reduceNode_denotes hc hg _ (fun _ => rfl) h⟩
  case reduceProd => exact ⟨_, _, rfl, rfl, reduceNode_denotes hc hg _ (fun _ => rfl) h⟩
  case reduceSum => exact ⟨_, _, rfl, rfl, reduceNode_denotes hc hg _ (fun _ => rfl) h⟩
  case relu => exact ⟨_, _, rfl, rfl, unaryNode_denotes hc hg .relu rfl h⟩
  case relu1 => exact ⟨_, _, rfl, rfl, unaryNode_denotes hc hg _ entrywise_clamp_relu1 h⟩
  case relu6 => exact ⟨_, _, rfl, rfl, unaryNode_denotes hc hg _ entrywise_clamp_relu6 h⟩
  case reshape => exact ⟨_, _, rfl, rfl, Reshape.createNode_denotes hc hg h⟩
  case rsqrt => exact ⟨_, _, rfl, rfl, RSQRT.createNode_denotes hc hg h⟩
  case select => exact ⟨_, _, rfl, rfl, Select.createNode_denotes hc hg h⟩
  case softmax => exact ⟨_, _, rfl, rfl, Softmax.createNode_denotes hc hg h⟩
  case spaceToDepth => exact ⟨_, _, rfl, rfl, SpaceToDepth.createNode_denotes hc hr hg h⟩
  case squeeze => exact ⟨_, _, rfl, rfl, Squeeze.createNode_denotes hr hg h⟩
  case sqrt => exact ⟨_, _, rfl, rfl, unaryNode_denotes hc hg .sqrt rfl h⟩
  case sin => exact ⟨_, _, rfl, rfl, unaryNode_denotes hc hg .sin rfl h⟩
  case sub => exact ⟨_, _, rfl, rfl, activatedNode_denotes hc hg .subtract rfl h⟩
  case tanh => exact ⟨_, _, rfl, rfl, unaryNode_denotes hc hg .tanh rfl h⟩
  case transpose => exact ⟨_, _, rfl, rfl, Transpose.createNode_denotes hc hg h⟩
  all_goals cases h

/-- What is written as the only output. -/
theorem single_eq_some {info : NnapiModelInfo} {operation : Operation} {result : Option (Tensor ℝ)}
    (h : info.single operation result = some qs) :
    ∃ o y q, operation.outputs = [o] ∧ result = some y ∧ (info.getOperand o).store y = some q ∧
      qs = [q] := by
  unfold NnapiModelInfo.single at h
  split at h
  · next o houtputs =>
    obtain ⟨q, hq, rfl⟩ := Option.map_eq_some_iff.mp h
    obtain ⟨y, hy, hq⟩ := Option.bind_eq_some_iff.mp hq
    exact ⟨o, y, q, houtputs, hy, hq, rfl⟩
  · cases h

/-- `Quantize` stores its input as its operand does. -/
theorem Quantize.createNode_connects (hM : M.Documented) (hg : self.Meets ng M nodes g) {o : Nat}
    (ho : self.outputIndex 0 = o) (htype : self.sModelInfo.getOperandType o = .tensorQuant8Asymm)
    {q : Tensor ℝ} (hy : g.tensor 0 = some y)
    (hstore : (self.sModelInfo.getOperand o).store y = some q) :
    self.ConnectsTo ng M nodes (Quantize.createNode self) [o] [q] := by
  unfold OperationsBase.ConnectsTo Quantize.createNode
  rw [ho]
  have hunsigned : (self.sModelInfo.getOperand o).type = .tensorQuant8Asymm := htype
  refine (hg.tensor 0 y hy).bind_ends fun input hinput => ?_
  rcases store_eq_some hstore with ⟨hplain, -⟩ | ⟨a, ha, hstorable, rfl⟩
  · rw [hunsigned] at hplain
    cases hplain
  · have hstored := @returns_stored M ng nodes self o a hM.toComputable ha input y hinput hstorable
    rw [hunsigned] at hstored
    refine hstored.bind_ends fun node hnode => ?_
    exact connects_setOperationOutput.mono fun _ _ h => ⟨[node], h, .cons hnode .nil⟩

/-- **One operation.**  The class of an operation binds its outputs to nodes that
denote what the operation writes. -/
theorem written_connects (hM : M.Documented) (hng : ng.Infers M) (hg : self.Meets ng M nodes g)
    (hdevice : self.sPluginType ≠ .vpu) {operation : Operation}
    (hoperation : self.sModelInfo.getOperation self.mNnapiOperationIndex = operation)
    (hindex : self.mDefaultOutputIndex = self.outputIndex 0)
    (h : self.sModelInfo.written operation g = some qs) :
    ∃ cls, OperationsFactory.getOperation operation.type = some cls ∧
      self.ConnectsTo ng M nodes (cls.connectOperationToGraph self) operation.outputs qs := by
  have hfirst : ∀ o, operation.outputs = [o] → self.outputIndex 0 = o := by
    intro o ho
    unfold OperationsBase.outputIndex NnapiModelInfo.getOperationOutput
    rw [hoperation, ho]
    rfl
  unfold NnapiModelInfo.written at h
  split at h
  · next htype =>
    rw [htype]
    exact ⟨_, rfl, Split.createNode_connects hM.toComputable hM.toRearranges hg
      (congrArg Operation.outputs hoperation) h⟩
  · next htype =>
    rw [htype]
    split at h
    · next hunsigned =>
      obtain ⟨o, y, q, houtputs, hy, hstore, rfl⟩ := single_eq_some h
      rw [houtputs] at hunsigned ⊢
      exact ⟨_, rfl, Quantize.createNode_connects hM hg (hfirst o houtputs)
        (hunsigned o List.mem_cons_self) hy hstore⟩
    · cases h
  · obtain ⟨o, y, q, houtputs, hy, hstore, rfl⟩ := single_eq_some h
    obtain ⟨cls, createNode, hcls, hconnect, hcreate⟩ := class_denotes hM hng hg hdevice hy
    have ho : self.mDefaultOutputIndex = o := hindex.trans (hfirst o houtputs)
    refine ⟨cls, hcls, ?_⟩
    rw [hconnect, houtputs, ← ho]
    rw [← ho] at hstore
    exact connectDefault_connects hM.toComputable hcreate hstore

end Operation

/-! ## All operations -/

section Graph

variable {M : Meaning ℝ} {ng : Ngraph} {info : NnapiModelInfo} {device : IntelDeviceType}
variable {nodes : NgraphNodes} {env env' : Environment (Tensor ℝ)}

theorem forall₂_imp_of_mem {α β : Type} {P Q : α → β → Prop} {as : List α} {bs : List β}
    (h : List.Forall₂ P as bs) (himp : ∀ a, ∀ b ∈ bs, P a b → Q a b) : List.Forall₂ Q as bs := by
  induction h with
  | nil => exact .nil
  | cons hab _ ih =>
      refine .cons (himp _ _ List.mem_cons_self hab) (ih fun a b hb => ?_)
      exact himp a b (List.mem_cons_of_mem _ hb)

theorem exists_mem_of_forall₂ {α β : Type} {R : α → β → Prop} {as : List α} {bs : List β}
    (h : List.Forall₂ R as bs) {b : β} (hb : b ∈ bs) : ∃ a ∈ as, R a b := by
  induction h with
  | nil => cases hb
  | cons hab _ ih =>
      rcases List.mem_cons.mp hb with rfl | hmem
      · exact ⟨_, List.mem_cons_self, hab⟩
      · obtain ⟨a, ha, hR⟩ := ih hmem
        exact ⟨a, List.mem_cons_of_mem _ ha, hR⟩

/-- What some operations leave in the node table: it is in step with the
environment, and their model outputs are bound to the nodes of their results. -/
structure Connected (M : Meaning ℝ) (info : NnapiModelInfo) (env : Environment (Tensor ℝ))
    (os : List Nat) (nodes nodes' : NgraphNodes) : Prop where
  denote : nodes'.Denote M env
  others : ∀ i ∉ os, nodes'.mOutputAtOperandIndex i = nodes.mOutputAtOperandIndex i
  params : nodes'.mInputParams = nodes.mInputParams
  names : nodes'.mNodeNames = nodes.mNodeNames
  results : ∃ results, nodes'.mResultNodes = nodes.mResultNodes ++ results ∧
    List.Forall₂ nodes'.Binds results (os.filter info.isOutput)

theorem Connected.append {nodes' nodes'' : NgraphNodes} {os os' : List Nat}
    (hfirst : Connected M info env os nodes nodes')
    (hrest : Connected M info env' os' nodes' nodes'')
    (hdisjoint : ∀ o ∈ os, o ∉ os') : Connected M info env' (os ++ os') nodes nodes'' where
  denote := hrest.denote
  others i hi := by
    rw [List.mem_append, not_or] at hi
    rw [hrest.others i hi.2, hfirst.others i hi.1]
  params := hrest.params.trans hfirst.params
  names := hrest.names.trans hfirst.names
  results := by
    obtain ⟨results, hresults, hall⟩ := hfirst.results
    obtain ⟨results', hresults', hall'⟩ := hrest.results
    refine ⟨results ++ results', ?_, ?_⟩
    · rw [hresults', hresults, List.append_assoc]
    · rw [List.filter_append]
      refine List.rel_append (forall₂_imp_of_mem hall fun result o ho hbinds => ?_) hall'
      -- no later operation writes the outputs of the first ones
      obtain ⟨node, rfl, hnode⟩ := hbinds
      refine ⟨node, rfl, ?_⟩
      rw [← hnode]
      exact hrest.others o (hdisjoint o (List.mem_of_mem_filter ho))

/-- One operation follows one step. -/
theorem connectOperation_connected (hM : M.Documented) (hng : ng.Infers M)
    (hdevice : device ≠ .vpu) (hnodes : nodes.Denote M env) {i : Nat}
    (hnodup : (info.getOperation i).outputs.Nodup)
    (hstep : (info.step (info.getOperation i)).run env = some env') :
    ∃ node, NgraphNetworkCreator.operationNode info (OperationsFactory.statics device info) i =
        some node ∧
      Ends (answer ng) nodes
        (node.connectOperationToGraph (OperationsFactory.statics device info)) fun _ nodes' =>
          Connected M info env' (info.getOperation i).outputs nodes nodes' := by
  obtain ⟨qs, hwritten, hlength, rfl⟩ := Step.run_eq_some.mp hstep
  -- what the methods of the object see
  let base : OperationsBase :=
    { sModelInfo := info, sPluginType := device, mNnapiOperationIndex := i
      mDefaultOutputIndex := info.getOperationOutput i 0 }
  have hclass := @written_connects M ng nodes base _ qs hM hng
    (arguments_meet hM.toComputable hnodes) hdevice (info.getOperation i) rfl rfl hwritten
  obtain ⟨cls, hcls, hconnects⟩ := hclass
  refine ⟨⟨cls, i, info.getOperationOutput i 0⟩, ?_, ?_⟩
  · simp only [NgraphNetworkCreator.operationNode, hcls, Option.map_some]
    rfl
  · refine Ends.mono hconnects fun _ nodes' h => ?_
    obtain ⟨ns, hconnects, hns⟩ := h
    have hbinds := hconnects.binds hnodup (hns.length_eq.trans hlength)
    exact ⟨hconnects.denote hnodes hns, fun _ => hconnects.bound_of_notMem, hconnects.params,
      hconnects.names, _, hconnects.results, hbinds⟩

/-- The loop over the operations follows the evaluation of the model. -/
theorem connectNodes_connected (hM : M.Documented) (hng : ng.Infers M) (hdevice : device ≠ .vpu)
    {is : List Nat} (hnodup : (is.flatMap fun i => (info.getOperation i).outputs).Nodup)
    (hnodes : nodes.Denote M env)
    (hrun : run (is.map fun i => info.step (info.getOperation i)) env = some env') :
    Ends (answer ng) nodes (NgraphNetworkCreator.connectNodes
      (OperationsFactory.statics device info) (NgraphNetworkCreator.nodesAt info device is))
      fun created nodes' => created = true ∧
        Connected M info env' (is.flatMap fun i => (info.getOperation i).outputs) nodes nodes' := by
  induction is generalizing nodes env with
  | nil =>
      obtain rfl := Option.some.inj hrun
      refine (returns_pure (Q := (· = true)) rfl).ends.mono fun _ nodes' h => ?_
      obtain ⟨rfl, htrue⟩ := h
      exact ⟨htrue, hnodes, fun _ _ => rfl, rfl, rfl, [], (List.append_nil _).symm, .nil⟩
  | cons i is ih =>
      rw [List.flatMap_cons, List.nodup_append] at hnodup
      rcases hnodup with ⟨hfirstNodup, hrestNodup, hdisjoint⟩
      obtain ⟨middle, hstep, hrest⟩ := run_cons.mp hrun
      have hone := @connectOperation_connected M ng info device nodes env middle hM hng hdevice
        hnodes i hfirstNodup hstep
      obtain ⟨node, hnode, hends⟩ := hone
      unfold NgraphNetworkCreator.nodesAt
      rw [List.map_cons, hnode]
      refine Ends.bind hends fun _ nodes₁ hfirst => ?_
      refine Ends.mono (ih hrestNodup hfirst.denote hrest) fun created nodes₂ h => ?_
      obtain ⟨hcreated, hlater⟩ := h
      rw [List.flatMap_cons]
      exact ⟨hcreated, hfirst.append hlater fun o ho hmem => hdisjoint o ho o hmem rfl⟩

/-! ## The whole graph -/

/-- A parameter holds the tensor it is fed, of its shape and with entries of its
type. -/
def Meaning.Feeds (M : Meaning ℝ) (inputs : Nat → Tensor ℝ) : Prop :=
  ∀ (i : Nat) (type : ElementType), (∀ index, Inside (inputs i).shape index →
    type.Holds ((inputs i).get index)) → M (.parameter i type (inputs i).shape) [] 0 = inputs i

/-- The parameter of a model input. -/
def IsParameter (info : NnapiModelInfo) (node : Node) (i : Nat) : Prop :=
  ∃ type, NgraphNetworkCreator.parameterType (info.getOperand i).type = some type ∧
    node = .mk (.parameter i type (info.getOperand i).dimensions) []

theorem denote_parameter {inputs : Nat → Tensor ℝ} (hfeeds : M.Feeds inputs) {i : Nat}
    {type : ElementType} (hadmits : info.Admits i (inputs i))
    (htype : NgraphNetworkCreator.parameterType (info.getOperand i).type = some type) :
    (Node.mk (.parameter i type (info.getOperand i).dimensions) []).denote M 0 = inputs i := by
  obtain ⟨hshape, type', htype', hholds⟩ := hadmits
  obtain rfl := Option.some.inj (htype.symm.trans htype')
  rw [← hshape, Node.denote, Node.denoteAll]
  exact hfeeds i type hholds

/-- The parameter of an operand is determined. -/
theorem isParameter_unique {node node' : Node} {i : Nat} (h : IsParameter info node i)
    (h' : IsParameter info node' i) : node = node' := by
  obtain ⟨type, htype, rfl⟩ := h
  obtain ⟨type', htype', rfl⟩ := h'
  rw [Option.some.inj (htype.symm.trans htype')]

/-- An operand is bound to its parameter. -/
def NgraphNodes.BindsParameter (nodes : NgraphNodes) (info : NnapiModelInfo) (param : Node)
    (i : Nat) : Prop :=
  IsParameter info param i ∧ nodes.mOutputAtOperandIndex i = some (param, 0)

/-- The loop over the model inputs binds a parameter to each. -/
theorem createInputParams_binds {is : List Nat}
    (hsized : ∀ i ∈ is, NgraphNetworkCreator.zeroSized (info.getOperand i) = false) :
    Ends (answer ng) nodes (NgraphNetworkCreator.createInputParams info is)
      fun created nodes' => created = true →
        (∀ i ∉ is, nodes'.mOutputAtOperandIndex i = nodes.mOutputAtOperandIndex i) ∧
        (∀ i param, nodes.BindsParameter info param i → nodes'.BindsParameter info param i) ∧
        nodes'.mResultNodes = nodes.mResultNodes ∧ nodes'.mNodeNames = nodes.mNodeNames ∧
        ∃ params, nodes'.mInputParams = nodes.mInputParams ++ params ∧
          List.Forall₂ (nodes'.BindsParameter info) params is := by
  induction is generalizing nodes with
  | nil =>
      refine (returns_pure (Q := (· = true)) rfl).ends.mono fun _ nodes' h _ => ?_
      obtain ⟨rfl, -⟩ := h
      exact ⟨fun _ _ => rfl, fun _ _ => id, rfl, rfl, [], (List.append_nil _).symm, .nil⟩
  | cons i is ih =>
      unfold NgraphNetworkCreator.createInputParams
      rw [hsized i List.mem_cons_self, if_neg Bool.false_ne_true]
      cases htype : NgraphNetworkCreator.parameterType (info.getOperand i).type with
      | none =>
          refine (returns_pure (Q := (· = false)) rfl).ends.mono fun created _ h htrue => ?_
          rw [h.2] at htrue
          cases htrue
      | some type =>
          refine (returns_make (Q := (· = Node.mk (.parameter i type
            (info.getOperand i).dimensions) [])) rfl).bind_ends fun param hparam => ?_
          have hadd : Ends (answer ng) nodes (issue (.addInputParam param))
              fun _ nodes' => nodes' = nodes.addInputParam param := fun _ _ => rfl
          refine Ends.bind hadd fun _ nodes₁ h => ?_
          subst h
          have hset : Ends (answer ng) (nodes.addInputParam param)
              (issue (.setOutputAtOperandIndex i (some (param, 0)))) fun _ nodes' =>
                nodes' = (nodes.addInputParam param).setOutputAtOperandIndex i (some (param, 0)) :=
            fun _ _ => rfl
          refine Ends.bind hset fun _ nodes₂ h => ?_
          have hother : ∀ j ≠ i, nodes₂.mOutputAtOperandIndex j =
              nodes.mOutputAtOperandIndex j := by
            intro j hji
            rw [h]
            exact Function.update_of_ne hji _ _
          have hbound : nodes₂.BindsParameter info param i := by
            refine ⟨⟨type, htype, hparam⟩, ?_⟩
            rw [h]
            exact Function.update_self _ _ _
          refine Ends.mono (ih fun j hj => hsized j (List.mem_cons_of_mem _ hj))
            fun created nodes' hend htrue => ?_
          obtain ⟨hothers, hkept, hresults, hnames, params, hparams, hall⟩ := hend htrue
          refine ⟨fun j hj => ?_, fun j param' hbinds => ?_, ?_, ?_, param :: params, ?_, ?_⟩
          · rw [List.mem_cons, not_or] at hj
            rw [hothers j hj.2, hother j hj.1]
          · by_cases hji : j = i
            · subst hji
              rw [isParameter_unique hbinds.1 hbound.1]
              exact hkept j param hbound
            · exact hkept j param' ⟨hbinds.1, (hother j hji).trans hbinds.2⟩
          · rw [hresults, h]
            rfl
          · rw [hnames, h]
            rfl
          · rw [hparams, h]
            simp [NgraphNodes.addInputParam, NgraphNodes.setOutputAtOperandIndex]
          · exact .cons (hkept i param hbound) hall

theorem inputEnvironment_eq_some {inputs : Nat → Tensor ℝ} {i : Nat} {x : Tensor ℝ}
    (h : info.inputEnvironment inputs i = some x) :
    i ∈ info.getModelInputIndexes ∧ info.Admits i x ∧ x = inputs i := by
  unfold NnapiModelInfo.inputEnvironment at h
  split at h
  · next hvalid =>
    obtain rfl := Option.some.inj h
    exact ⟨hvalid.1, hvalid.2, rfl⟩
  · cases h

theorem map_getOperation :
    (List.range info.getOperationsSize).map info.getOperation = info.mModel.operations := by
  apply List.ext_getElem
  · simp [NnapiModelInfo.getOperationsSize]
  · intro i hi hlt
    simp [NnapiModelInfo.getOperation, hlt]

/-- The node table carries the values of the model: its inputs are bound to the
parameters, its outputs to the results, and nothing has been asked for its name. -/
structure NgraphNodes.Carries (nodes : NgraphNodes) (M : Meaning ℝ) (info : NnapiModelInfo)
    (env : Environment (Tensor ℝ)) : Prop where
  denote : nodes.Denote M env
  names : nodes.mNodeNames = fun _ => none
  params : List.Forall₂ (nodes.BindsParameter info) nodes.mInputParams info.getModelInputIndexes
  results : List.Forall₂ nodes.Binds nodes.mResultNodes
    ((info.mModel.operations.flatMap (·.outputs)).filter info.isOutput)

/-- The table before the operations are connected. -/
theorem inputEnvironment_denotes {inputs : Nat → Tensor ℝ} (hfeeds : M.Feeds inputs)
    {nodes₁ : NgraphNodes} {params : List Node}
    (hall : List.Forall₂ (nodes₁.BindsParameter info) params info.getModelInputIndexes) :
    nodes₁.Denote M (info.inputEnvironment inputs) := by
  intro i x hx
  obtain ⟨hmem, hadmits, rfl⟩ := inputEnvironment_eq_some hx
  obtain ⟨param, -, hparam, hbound⟩ := exists_mem_of_forall₂ hall hmem
  obtain ⟨type, htype, rfl⟩ := hparam
  exact ⟨_, hbound, rfl, denote_parameter hfeeds hadmits htype⟩

/-- A graph generation leaves the values of the model in the node table. -/
theorem graphRun_carries {inputs : Nat → Tensor ℝ} (hM : M.Documented) (hng : ng.Infers M)
    (hfeeds : M.Feeds inputs) (hdevice : device ≠ .vpu) (hmodel : info.mModel.WellFormed)
    (hsized : ∀ i ∈ info.getModelInputIndexes,
      NgraphNetworkCreator.zeroSized (info.getOperand i) = false)
    (heval : info.evaluate inputs = some env)
    (hrun : (NgraphNetworkCreator.graphRun info device ng).outcome = .ok true) :
    (NgraphNetworkCreator.graphRun info device ng).state.Carries M info env := by
  have hoperations := @flatMap_getOperation info
  have hnodup : ((List.range info.getOperationsSize).flatMap fun i =>
      (info.getOperation i).outputs).Nodup := by
    rw [hoperations]
    exact hmodel.2.2.2.2
  have hsteps : run ((List.range info.getOperationsSize).map fun i =>
      info.step (info.getOperation i)) (info.inputEnvironment inputs) = some env := by
    rw [← heval, NnapiModelInfo.evaluate, ← map_getOperation, List.map_map]
    rfl
  have hends : Ends (answer ng) {} ((NgraphNetworkCreator.construct info device).1.initializeModel
      (NgraphNetworkCreator.construct info device).2) fun created nodes => created = true →
        nodes.Carries M info env := by
    have hparams := @createInputParams_binds ng info {} info.getModelInputIndexes hsized
    unfold NgraphNetworkCreator.initializeModel
    refine Ends.bind hparams fun created nodes₁ h => ?_
    cases created with
    | false =>
        refine (returns_pure (Q := (· = false)) rfl).ends.mono fun created _ h htrue => ?_
        rw [h.2] at htrue
        cases htrue
    | true =>
        obtain ⟨-, -, hresults, hnames, params, hparams, hall⟩ := h rfl
        have hdenote := inputEnvironment_denotes hfeeds hall
        refine Ends.mono (connectNodes_connected hM hng hdevice hnodup hdenote hsteps)
          fun _ nodes₂ h _ => ?_
        obtain ⟨-, hconnected⟩ := h
        refine ⟨hconnected.denote, hconnected.names.trans hnames, ?_, ?_⟩
        · rw [hconnected.params, hparams]
          -- no operation writes a model input
          refine forall₂_imp_of_mem hall fun param i hi hbinds => ⟨hbinds.1, ?_⟩
          rw [hconnected.others i fun hmem => ?_]
          · exact hbinds.2
          · rw [hoperations] at hmem
            exact (output_not_input hmodel hmem).2 hi
        · obtain ⟨results, hresults₂, hall₂⟩ := hconnected.results
          rw [hresults₂, hresults, ← hoperations]
          exact hall₂
  exact hends true hrun rfl

/-- The results of a table that carries the values denote them. -/
theorem NgraphNodes.Carries.results_denote {inputs : Nat → Tensor ℝ} (h : nodes.Carries M info env)
    (heval : info.evaluate inputs = some env) :
    List.Forall₂ (ResultDenotes M env) nodes.mResultNodes
      ((info.mModel.operations.flatMap (·.outputs)).filter info.isOutput) := by
  refine forall₂_imp_of_mem h.results fun result o ho hbinds => ?_
  refine resultDenotes_of_binds h.denote hbinds (isSome_of_mem_targets heval ?_)
  unfold targets
  rw [List.flatMap_map]
  exact List.mem_of_mem_filter ho

/-- The function that is generated has the parameters and the results of the
table. -/
theorem generateGraph_eq_some {function : NgraphFunction}
    (hgraph : (NgraphNetworkCreator.construct info device).1.generateGraph
      (NgraphNetworkCreator.construct info device).2 ng = .ok (some function)) :
    (NgraphNetworkCreator.graphRun info device ng).outcome = .ok true ∧
      function.parameters = (NgraphNetworkCreator.graphRun info device ng).state.mInputParams ∧
      function.results = (NgraphNetworkCreator.graphRun info device ng).state.mResultNodes := by
  unfold NgraphNetworkCreator.generateGraph at hgraph
  dsimp only at hgraph
  split at hgraph
  · next houtcome =>
    have hfunction := Except.ok.inj hgraph
    unfold NgraphNetworkCreator.functionOf at hfunction
    split at hfunction
    · obtain rfl := Option.some.inj hfunction
      exact ⟨houtcome, rfl, rfl⟩
    · cases hfunction
  · cases Except.ok.inj hgraph
  · cases Except.ok.inj hgraph
  · cases hgraph

/-- **Meaning.**  A graph that is generated has the model inputs for its
parameters, and its results denote the values of the model outputs in the order in
which the operations write them. -/
theorem generateGraph_denotes {inputs : Nat → Tensor ℝ} (hM : M.Documented) (hng : ng.Infers M)
    (hfeeds : M.Feeds inputs) (hdevice : device ≠ .vpu) (hmodel : info.mModel.WellFormed)
    (hsized : ∀ i ∈ info.getModelInputIndexes,
      NgraphNetworkCreator.zeroSized (info.getOperand i) = false)
    (heval : info.evaluate inputs = some env) {function : NgraphFunction}
    (hgraph : (NgraphNetworkCreator.construct info device).1.generateGraph
      (NgraphNetworkCreator.construct info device).2 ng = .ok (some function)) :
    List.Forall₂ (IsParameter info) function.parameters info.getModelInputIndexes ∧
      List.Forall₂ (ResultDenotes M env) function.results
        ((info.mModel.operations.flatMap (·.outputs)).filter info.isOutput) := by
  obtain ⟨hrun, hparameters, hresults⟩ := generateGraph_eq_some hgraph
  have hcarries := graphRun_carries hM hng hfeeds hdevice hmodel hsized heval hrun
  rw [hparameters, hresults]
  exact ⟨hcarries.params.imp fun _ _ h => h.1, hcarries.results_denote heval⟩

/-! ### A small model -/

/-- A model that adds its input to itself and takes the positive part of the sum. -/
def doublingModel : Model where
  operands :=
    [{ type := .tensorFloat32, dimensions := [2], lifetime := .subgraphInput },
     { type := .int32, lifetime := .constantCopy, location := { length := 4 } },
     { type := .tensorFloat32, dimensions := [2], lifetime := .temporaryVariable },
     { type := .tensorFloat32, dimensions := [2], lifetime := .subgraphOutput }]
  operations :=
    [{ type := .add, inputs := [0, 0, 1], outputs := [2] },
     { type := .relu, inputs := [2], outputs := [3] }]
  inputIndexes := [0]
  outputIndexes := [3]
  operandValues := [0, 0, 0, 0]

/-- Tensors of two ones. -/
noncomputable def pairOfOnes (_ : Nat) : Tensor ℝ := Tensor.ofFn [2] fun _ => 1

/-- What the model information of the driver is for it. -/
def doublingInfo : NnapiModelInfo := ⟨doublingModel, []⟩

/-- The tensor of the sum. -/
noncomputable def doubledPair : Tensor ℝ :=
  (Tensor.broadcast (· + ·) (pairOfOnes 0) (pairOfOnes 0)).map (fusedActivation 0)

/-- What the operands of the model hold. -/
noncomputable def doublingValues : Environment (Tensor ℝ) :=
  Function.update (Function.update (doublingInfo.inputEnvironment pairOfOnes) 2 (some doubledPair))
    3 (some (doubledPair.map fun v => max v 0))

theorem doublingInfo_evaluate : doublingInfo.evaluate pairOfOnes = some doublingValues := by
  have hinput : doublingInfo.inputEnvironment pairOfOnes 0 = some (pairOfOnes 0) :=
    if_pos ⟨by decide, rfl, .f32, rfl, fun _ _ => trivial⟩
  generalize henv : doublingInfo.inputEnvironment pairOfOnes = env at hinput
  have hadd : (doublingInfo.step ⟨.add, [0, 0, 1], [2]⟩).run env =
      some (Function.update env 2 (some doubledPair)) := by
    refine Step.run_eq_some.mpr ⟨[doubledPair], ?_, rfl, rfl⟩
    have hfirst : (doublingInfo.arguments ⟨.add, [0, 0, 1], [2]⟩ env).tensor 0 =
        some (pairOfOnes 0) := congrArg (fun x => x.bind some) hinput
    have hsecond : (doublingInfo.arguments ⟨.add, [0, 0, 1], [2]⟩ env).tensor 1 =
        some (pairOfOnes 0) := congrArg (fun x => x.bind some) hinput
    have hbinary : (doublingInfo.arguments ⟨.add, [0, 0, 1], [2]⟩ env).binary .add =
        some (Tensor.broadcast (· + ·) (pairOfOnes 0) (pairOfOnes 0)) := by
      have hdefined : Pairwise.add.DefinedOn (pairOfOnes 0) (pairOfOnes 0) :=
        definedOn_total_pair fun _ => .inl rfl
      unfold Arguments.binary
      rw [hfirst, hsecond, Option.bind_some, Option.bind_some]
      exact if_pos hdefined
    have hresult : (doublingInfo.arguments ⟨.add, [0, 0, 1], [2]⟩ env).result .add =
        some doubledPair := by
      have hcode : (doublingInfo.arguments ⟨.add, [0, 0, 1], [2]⟩ env).number .int32 2 =
          some 0 := congrArg some (by decide : doublingInfo.scalarValue .int32 1 = 0)
      unfold Arguments.result Arguments.activated
      rw [hbinary, hcode]
      rfl
    have hwritten : doublingInfo.written ⟨.add, [0, 0, 1], [2]⟩
        (doublingInfo.arguments ⟨.add, [0, 0, 1], [2]⟩ env) =
          doublingInfo.single ⟨.add, [0, 0, 1], [2]⟩
            ((doublingInfo.arguments ⟨.add, [0, 0, 1], [2]⟩ env).result .add) := rfl
    exact hwritten.trans (by rw [hresult]; rfl)
  have hrelu : (doublingInfo.step ⟨.relu, [2], [3]⟩).run
      (Function.update env 2 (some doubledPair)) =
        some (Function.update (Function.update env 2 (some doubledPair)) 3
          (some (doubledPair.map fun v => max v 0))) := by
    refine Step.run_eq_some.mpr ⟨[doubledPair.map fun v => max v 0], ?_, rfl, rfl⟩
    have hunary : (doublingInfo.arguments ⟨.relu, [2], [3]⟩
        (Function.update env 2 (some doubledPair))).unary .relu =
          some (doubledPair.map fun v => max v 0) := by
      have hfirst : (doublingInfo.arguments ⟨.relu, [2], [3]⟩
          (Function.update env 2 (some doubledPair))).tensor 0 = some doubledPair := rfl
      have hdefined : Entrywise.relu.DefinedOn doubledPair := definedOn_total
      unfold Arguments.unary
      rw [hfirst, Option.bind_some, if_pos hdefined]
      rfl
    have hwritten : doublingInfo.written ⟨.relu, [2], [3]⟩
        (doublingInfo.arguments ⟨.relu, [2], [3]⟩ (Function.update env 2 (some doubledPair))) =
          doublingInfo.single ⟨.relu, [2], [3]⟩ ((doublingInfo.arguments ⟨.relu, [2], [3]⟩
            (Function.update env 2 (some doubledPair))).unary .relu) := rfl
    exact hwritten.trans (by rw [hunary]; rfl)
  unfold NnapiModelInfo.evaluate doublingValues
  rw [henv]
  exact run_cons.mpr ⟨_, hadd, run_cons.mpr ⟨_, hrelu, rfl⟩⟩

/-- The parameter is the input, the result denotes the positive part of the sum. -/
theorem doublingInfo_denotes :
    ∃ function, (NgraphNetworkCreator.construct doublingInfo .cpu).1.generateGraph
        (NgraphNetworkCreator.construct doublingInfo .cpu).2
        (.ofMeaning (realReference pairOfOnes)) = .ok (some function) ∧
      List.Forall₂ (IsParameter doublingInfo) function.parameters [0] ∧
      List.Forall₂ (ResultDenotes (realReference pairOfOnes) doublingValues) function.results [3] :=
  ⟨_, rfl, generateGraph_denotes realReference_documented (Ngraph.ofMeaning_infers _)
    (fun _ _ _ => rfl) (show IntelDeviceType.cpu ≠ .vpu by decide) (by decide) (by decide)
    doublingInfo_evaluate rfl⟩

end Graph

end NnHal
