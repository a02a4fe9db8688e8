import NnHal.ResultNodes
import Mathlib.Data.List.Nodup

/-!
# The parameters and the names of the inputs

`NgraphNodes` keeps three tables about a model input: the Parameter in
`mInputParams`, the output bound in `mOutputAtOperandIndex`, and the name in
`mNodeNames`, where the empty name stands for an input that is not fed.
`createInputParams` fills the first two, `getNodeName` the third, and
`removeInputParameter` looks a Parameter up by the name of an operand and then
marks that operand.

The tables agree as long as a removal meets its own Parameter.  `CAST` can bind
its output to the node of its input, and a removal of that output erases the
Parameter of the input, whose name stays.
-/

namespace NnHal

open Command Runs

namespace NgraphNodes

variable {ng : Ngraph} {nodes : NgraphNodes} {i : Nat} {name : String}

/-! ## What a removal does -/

theorem eraseNamed_of_notMem {ps : List Node} (h : name ∉ ps.map ng.getName) :
    eraseNamed ng name ps = ps := by
  induction ps with
  | nil => rfl
  | cons p ps ih =>
      obtain ⟨hp, hps⟩ := not_or.mp (mt List.mem_cons.mpr h)
      unfold eraseNamed
      rw [if_neg (Ne.symm hp), ih hps]

/-- Where no name comes twice, the entry the loop passes over is not one it
looks for. -/
theorem eraseNamed_eq_filter {ps : List Node} (hnodup : (ps.map ng.getName).Nodup) :
    eraseNamed ng name ps = ps.filter fun p => ng.getName p ≠ name := by
  induction ps with
  | nil => rfl
  | cons p ps ih =>
      obtain ⟨hp, hps⟩ := List.nodup_cons.mp hnodup
      by_cases hname : ng.getName p = name
      · subst hname
        have hkept : (ps.filter fun q => ng.getName q ≠ ng.getName p) = ps := by
          apply List.filter_eq_self.mpr
          intro q hq
          have hne : ng.getName q ≠ ng.getName p :=
            fun heq => hp (heq ▸ List.mem_map_of_mem hq)
          exact decide_eq_true hne
        rw [List.filter_cons_of_neg (by simp), hkept]
        cases ps with
        | nil => simp [eraseNamed]
        | cons q qs =>
            obtain ⟨-, hqs⟩ := not_or.mp (mt List.mem_cons.mpr hp)
            simp [eraseNamed, eraseNamed_of_notMem hqs]
      · unfold eraseNamed
        rw [if_neg hname, ih hps, List.filter_cons_of_pos (by simpa using hname)]

/-- A name asked for is remembered. -/
theorem getNodeName_snd : (nodes.getNodeName ng i).2 =
    { nodes with
      mNodeNames :=
        Function.update nodes.mNodeNames i (some (nodes.getNodeName ng i).1) } := by
  unfold getNodeName
  cases h : nodes.mNodeNames i with
  | none => rfl
  | some name =>
      dsimp only
      rw [← h, Function.update_eq_self]

theorem getNodeName_names_other {j : Nat} (h : i ≠ j) :
    (nodes.getNodeName ng i).2.mNodeNames j = nodes.mNodeNames j := by
  rw [getNodeName_snd]
  exact Function.update_of_ne (Ne.symm h) _ _

theorem getNodeName_of_recorded (h : nodes.mNodeNames i = some name) :
    nodes.getNodeName ng i = (name, nodes) := by
  simp [getNodeName, h]

theorem removeInputNode_eq : nodes.removeInputNode ng i =
    (nodes.getNodeName ng i).2.removeInputParameter ng (nodes.getNodeName ng i).1 i := rfl

/-- The Parameter of the name the operand has is erased, and the operand
becomes invalid. -/
theorem removeInputNode_of_mem (hnodup : (nodes.mInputParams.map ng.getName).Nodup)
    (hmem : (nodes.getNodeName ng i).1 ∈ nodes.mInputParams.map ng.getName) :
    nodes.removeInputNode ng i =
      { nodes with
        mInputParams :=
          nodes.mInputParams.filter fun p => ng.getName p ≠ (nodes.getNodeName ng i).1
        mNodeNames := Function.update nodes.mNodeNames i (some "") } := by
  obtain ⟨p, hp, hname⟩ := List.mem_map.mp hmem
  have hshorter : (nodes.mInputParams.filter fun q =>
      ng.getName q ≠ (nodes.getNodeName ng i).1).length < nodes.mInputParams.length := by
    apply List.length_filter_lt_length_iff_exists.mpr
    exact ⟨p, hp, by simp [hname]⟩
  rw [removeInputNode_eq, getNodeName_snd]
  unfold removeInputParameter
  dsimp only
  rw [eraseNamed_eq_filter hnodup, if_neg (Nat.ne_of_lt hshorter)]
  simp [setInvalidNode]

/-- An operand of any other name only has its name remembered. -/
theorem removeInputNode_of_notMem
    (h : (nodes.getNodeName ng i).1 ∉ nodes.mInputParams.map ng.getName) :
    nodes.removeInputNode ng i = (nodes.getNodeName ng i).2 := by
  rw [removeInputNode_eq, getNodeName_snd]
  unfold removeInputParameter
  dsimp only
  rw [eraseNamed_of_notMem h, if_pos rfl]

/-- A removal records a name for its operand only. -/
theorem removeInputNode_names_other {j : Nat} (h : i ≠ j) :
    (nodes.removeInputNode ng i).mNodeNames j = nodes.mNodeNames j := by
  rw [removeInputNode_eq]
  unfold removeInputParameter
  dsimp only
  split
  · exact getNodeName_names_other h
  · exact (Function.update_of_ne (Ne.symm h) _ _).trans (getNodeName_names_other h)

/-- An invalid operand names no Parameter. -/
theorem removeInputNode_of_invalid (hinvalid : nodes.mNodeNames i = some "")
    (h : "" ∉ nodes.mInputParams.map ng.getName) : nodes.removeInputNode ng i = nodes := by
  have hrecorded : nodes.getNodeName ng i = ("", nodes) := getNodeName_of_recorded hinvalid
  rw [removeInputNode_of_notMem (by rwa [hrecorded]), hrecorded]

/-- The operand has a name: that of its node, or the empty one. -/
def Known (nodes : NgraphNodes) (i : Nat) : Prop :=
  nodes.bound i = true ∨ nodes.mNodeNames i = some ""

end NgraphNodes

/-! ## The Parameters of the model inputs -/

namespace NgraphNetworkCreator

/-- The Parameter of a model input. -/
def inputParam (modelInfo : NnapiModelInfo) (i : Nat) : Node :=
  .mk (.parameter i ((parameterType (modelInfo.getOperand i).type).getD default)
    (modelInfo.getOperand i).dimensions) []

/-- The model inputs for which `createInputParams` creates one, up to the input
at which it fails. -/
def createdInputs (modelInfo : NnapiModelInfo) (ng : Ngraph) : List Nat → List Nat
  | [] => []
  | i :: inputs =>
      if zeroSized (modelInfo.getOperand i) then createdInputs modelInfo ng inputs
      else
        match parameterType (modelInfo.getOperand i).type with
        | none => []
        | some type =>
            if ng.accepts (.parameter i type (modelInfo.getOperand i).dimensions) [] then
              i :: createdInputs modelInfo ng inputs
            else []

variable {info : NnapiModelInfo} {ng : Ngraph}

theorem createdInputs_sublist (inputs : List Nat) :
    (createdInputs info ng inputs).Sublist inputs := by
  induction inputs with
  | nil => exact .slnil
  | cons i inputs ih =>
      unfold createdInputs
      split
      · exact ih.cons i
      · split
        · exact List.nil_sublist _
        · split
          · exact ih.cons_cons i
          · exact List.nil_sublist _

theorem inputParam_injective : Function.Injective (inputParam info) := by
  intro i j h
  unfold inputParam at h
  injection h with hop
  injection hop

theorem createdInputs_nonzero {inputs : List Nat} {i : Nat} (h : i ∈ createdInputs info ng inputs) :
    zeroSized (info.getOperand i) = false := by
  induction inputs with
  | nil => cases h
  | cons j inputs ih =>
      unfold createdInputs at h
      split at h
      · exact ih h
      · rename_i hzero
        split at h
        · cases h
        · split at h
          · rcases List.mem_cons.mp h with rfl | hrest
            · simpa using hzero
            · exact ih hrest
          · cases h

/-- What `createInputParams` adds to a table: the Parameters of the created
inputs, in order, each bound to its operand, and names for zero-sized inputs
only. -/
structure AddsParams (info : NnapiModelInfo) (created : List Nat) (nodes left : NgraphNodes) :
    Prop where
  params : left.mInputParams = nodes.mInputParams ++ created.map (inputParam info)
  outputs : ∀ i, left.mOutputAtOperandIndex i =
    if i ∈ created then some (inputParam info i, 0) else nodes.mOutputAtOperandIndex i
  names : ∀ i, left.mNodeNames i = nodes.mNodeNames i ∨
    zeroSized (info.getOperand i) = true ∧ left.mNodeNames i = some ""

theorem addsParams_nil (nodes : NgraphNodes) : AddsParams info [] nodes nodes where
  params := (List.append_nil _).symm
  outputs _ := rfl
  names _ := .inl rfl

theorem addsParams_createInputParams (inputs : List Nat) (nodes : NgraphNodes) :
    AddsParams info (createdInputs info ng inputs) nodes
      (exec (answer ng) (createInputParams info inputs) nodes).state := by
  induction inputs generalizing nodes with
  | nil => exact addsParams_nil nodes
  | cons i inputs ih =>
      unfold createInputParams createdInputs
      by_cases hzero : zeroSized (info.getOperand i) = true
      · rw [if_pos hzero, if_pos hzero, exec_perform_bind rfl]
        have hrest := ih (nodes.setInvalidNode i)
        constructor
        · exact hrest.params
        · exact hrest.outputs
        · intro j
          rcases hrest.names j with hname | hname
          · by_cases hj : j = i
            · subst hj
              exact .inr ⟨hzero, hname.trans (Function.update_self _ _ _)⟩
            · exact .inl (hname.trans (Function.update_of_ne hj _ _))
          · exact .inr hname
      · rw [if_neg hzero, if_neg hzero]
        cases htype : parameterType (info.getOperand i).type with
        | none => exact addsParams_nil nodes
        | some type =>
            dsimp only
            by_cases haccepts : ng.accepts (.parameter i type (info.getOperand i).dimensions) []
            · have hmake : answer ng (.make (.parameter i type (info.getOperand i).dimensions) [])
                  nodes = .ok (inputParam info i, nodes) := by
                simp [answer, haccepts, inputParam, htype]
              rw [if_pos haccepts, makeShared, exec_perform_bind hmake, exec_perform_bind rfl,
                exec_perform_bind rfl]
              have hrest := ih ((nodes.addInputParam (inputParam info i)).setOutputAtOperandIndex i
                (some (inputParam info i, 0)))
              constructor
              · rw [hrest.params]
                simp [NgraphNodes.setOutputAtOperandIndex, NgraphNodes.addInputParam]
              · intro j
                rw [hrest.outputs]
                by_cases hj : j = i
                · subst hj
                  simp [NgraphNodes.setOutputAtOperandIndex]
                · simp [NgraphNodes.setOutputAtOperandIndex, NgraphNodes.addInputParam, hj]
              · exact hrest.names
            · have hmake : answer ng (.make (.parameter i type (info.getOperand i).dimensions) [])
                  nodes = .error .exception := by
                simp [answer, haccepts]
              rw [if_neg haccepts, makeShared, exec_perform_bind_error hmake]
              exact addsParams_nil nodes

end NgraphNetworkCreator

/-! ## Operations add no Parameter -/

/-- The command adds no Parameter and marks no operand. -/
def Cmd.connects : Cmd → Prop
  | .addInputParam _ | .setInvalidNode _ => False
  | _ => True

/-- Every command of the program does. -/
abbrev Connecting {α : Type} (p : Gen α) : Prop := Only Cmd.connects p

section Connecting

set_option synthInstance.maxSize 4096

variable {α : Type} {self : OperationsBase}

theorem Cmd.trims.connects {c : Cmd} (h : c.trims) : c.connects := by
  cases c <;> trivial

instance (priority := low) connecting_of_trimming (p : Gen α) [hp : Trimming p] :
    Connecting p :=
  hp.mono fun _ => Cmd.trims.connects

instance connecting_setOutput (index : Nat) (output : Option Output) :
    Connecting (issue (.setOutputAtOperandIndex index output)) := only_perform trivial

instance connecting_addModelOutput (index : Nat) (node : NodePtr) :
    Connecting (self.addModelOutput index node) := by
  have hset : Connecting (issue (.setResultNode index node)) := only_perform trivial
  unfold OperationsBase.addModelOutput
  infer_instance

instance connecting_setOperationOutput (index : Nat) (outNode : NodePtr) :
    Connecting (self.setOperationOutput index outNode) := by
  unfold OperationsBase.setOperationOutput
  infer_instance

theorem connecting_setConverted (index : Nat) {outNode : Option (Gen Node)}
    (hnode : ∀ q ∈ outNode, Reading q) : Connecting (self.setConverted index outNode) := by
  cases outNode with
  | none => exact connecting_setOperationOutput index none
  | some convert =>
      have hconvert := hnode convert rfl
      exact only_bind _ _

theorem connecting_connectDefault {q : Gen Node} (hq : Reading q) :
    Connecting (self.connectDefault q) := by
  have hquantized := @reading_quantized self
  exact only_bind _ _

theorem Cast.connecting : Connecting (Cast.createNode self) := by
  unfold Cast.createNode
  infer_instance

theorem Quantize.connecting : Connecting (Quantize.createNode self) := by
  unfold Quantize.createNode
  infer_instance

theorem RNN.connecting : Connecting (RNN.createNode self) := by
  unfold RNN.createNode
  infer_instance

theorem LSTM.connecting : Connecting (LSTM.createNode self) := by
  unfold LSTM.createNode
  dsimp only
  infer_instance

theorem UnidirectionalSequenceRNN.connecting :
    Connecting (UnidirectionalSequenceRNN.createNode self) := by
  unfold UnidirectionalSequenceRNN.createNode
  dsimp only
  infer_instance

instance connecting_setOutputs (mergeOutputs : Bool) (fw bw : Node) (fwLast bwLast : NodePtr) :
    Connecting (BidirectionalSequenceRNN.setOutputs self mergeOutputs fw bw fwLast bwLast) := by
  unfold BidirectionalSequenceRNN.setOutputs
  dsimp only
  infer_instance

theorem BidirectionalSequenceRNN.connecting :
    Connecting (BidirectionalSequenceRNN.createNode self) := by
  refine .step fun _ => .step fun _ => .step fun _ => .step fun _ => .step fun _ => ?_
  refine .step fun _ => .step fun _ => .step fun _ => .step fun _ => .step fun _ => ?_
  refine .step fun _ => .step fun _ => .step fun _ => .step fun _ => .step fun _ => ?_
  refine .step fun _ => .step fun _ => .step fun _ => .step fun _ => .step fun _ => ?_
  refine .step fun _ => .step fun _ => .step fun _ => .step fun _ => .step fun _ => ?_
  refine .step fun _ => .step fun _ => .step fun _ => .step fun _ => .step fun _ => ?_
  exact connecting_setOutputs _ _ _ _ _

theorem TopkV2.connecting : Connecting (TopkV2.createNode self) := by
  have hout : ∀ topk i, Connecting
      (self.setConverted (self.outputIndex i) (TopkV2.outNode self topk i)) :=
    fun topk i => connecting_setConverted _ (TopkV2.reading_outNode topk i)
  have hloop := fun topk => Only.forM (hout topk) [0, 1]
  unfold TopkV2.createNode
  infer_instance

theorem Split.connecting : Connecting (Split.createNode self) := by
  have hout : ∀ split i, Connecting (do
      let index ← Split.outputAt self i
      self.setConverted index (Split.outNode self split i)) := by
    intro split i
    have hindex : Reading (Split.outputAt self i) := reading_elementAt _ _
    have hconverted : ∀ index, Connecting
        (self.setConverted index (Split.outNode self split i)) :=
      fun index => connecting_setConverted index (Split.reading_outNode split i)
    infer_instance
  have hloop := fun split n => Only.forM (hout split) (List.range n)
  unfold Split.createNode
  infer_instance

/-- No class adds a Parameter. -/
theorem class_connects {type : OperationType} {cls : OperationClass}
    (hcls : OperationsFactory.getOperation type = some cls) :
    Connecting (cls.connectOperationToGraph self) := by
  by_cases hown : type.bindsItself = false
  · obtain ⟨createNode, hreads, hconnect⟩ := OperationsFactory.reads_createNode hcls hown
    rw [hconnect]
    exact connecting_connectDefault (hreads self)
  · cases type <;> try exact absurd rfl hown
    all_goals obtain rfl := Option.some.inj hcls
    case quantize => exact Quantize.connecting
    case cast => exact Cast.connecting
    case rnn => exact RNN.connecting
    case lstm => exact LSTM.connecting
    case topkV2 => exact TopkV2.connecting
    case split => exact Split.connecting
    case unidirectionalSequenceRnn => exact UnidirectionalSequenceRNN.connecting
    case bidirectionalSequenceRnn => exact BidirectionalSequenceRNN.connecting

end Connecting

/-! ## Runs on the node table -/

/-- A step on the table: a command of an operation, or a name that is asked
for. -/
inductive TableAct
  | command (c : Cmd)
  | getNodeName (index : Nat)

namespace TableAct

def apply (ng : Ngraph) (nodes : NgraphNodes) : TableAct → NgraphNodes
  | .command c => next (answer ng) nodes c
  | .getNodeName index => (nodes.getNodeName ng index).2

/-- The step adds no Parameter and marks no operand. -/
def connects : TableAct → Prop
  | .command c => c.connects
  | .getNodeName _ => True

/-- The operand it binds. -/
def binds : TableAct → Option Nat
  | .command c => c.binding.map (·.1)
  | .getNodeName _ => none

/-- The operand it removes. -/
def removes : TableAct → Option Nat
  | .command (.removeInputNode index) => some index
  | _ => none

/-- The operand whose name it asks for. -/
def asks : TableAct → Option Nat
  | .getNodeName index => some index
  | .command c => (TableAct.command c).removes

end TableAct

/-- What is called on the table of a model: the connection of an operation,
`removeInputNode` on an operand, and `getNodeName`. -/
inductive TableCall
  | connectOperationToGraph (index : Nat)
  | removeInputNode (operand : Nat)
  | getNodeName (operand : Nat)

/-- A run on the table: `createInputParams`, then any calls. -/
structure TableRun where
  info : NnapiModelInfo
  device : IntelDeviceType
  ng : Ngraph
  calls : List TableCall

namespace TableRun

variable (run : TableRun)

/-- The connection of the operation at an index, where it has a class. -/
def connection (index : Nat) : Gen Unit :=
  let statics := OperationsFactory.statics run.device run.info
  match NgraphNetworkCreator.operationNode run.info statics index with
  | some node => node.connectOperationToGraph statics
  | none => pure ()

/-- The table after a call. -/
def after (nodes : NgraphNodes) : TableCall → NgraphNodes
  | .connectOperationToGraph index => (exec (answer run.ng) (run.connection index) nodes).state
  | .removeInputNode operand => nodes.removeInputNode run.ng operand
  | .getNodeName operand => (nodes.getNodeName run.ng operand).2

/-- The steps of a call. -/
def steps (nodes : NgraphNodes) : TableCall → List TableAct
  | .connectOperationToGraph index =>
      (exec (answer run.ng) (run.connection index) nodes).trace.map fun sc => .command sc.2
  | .removeInputNode operand => [.command (.removeInputNode operand)]
  | .getNodeName operand => [.getNodeName operand]

/-- The table `createInputParams` leaves. -/
def start : NgraphNodes :=
  (exec (answer run.ng)
    (NgraphNetworkCreator.createInputParams run.info run.info.getModelInputIndexes) {}).state

/-- The model inputs with a Parameter. -/
def created : List Nat :=
  NgraphNetworkCreator.createdInputs run.info run.ng run.info.getModelInputIndexes

def actsFrom (nodes : NgraphNodes) : List TableCall → List TableAct
  | [] => []
  | call :: calls => run.steps nodes call ++ actsFrom (run.after nodes call) calls

/-- The steps of the run. -/
def acts : List TableAct := run.actsFrom run.start run.calls

/-- The tables the run goes through, from the one `createInputParams` leaves to
the last. -/
def states : List NgraphNodes := run.acts.scanl (TableAct.apply run.ng) run.start

/-- The run that connects the first operations of a model. -/
def connecting (info : NnapiModelInfo) (device : IntelDeviceType) (ng : Ngraph) (n : Nat) :
    TableRun where
  info
  device
  ng
  calls := (List.range n).map .connectOperationToGraph

variable {run}

/-- The steps of a call lead where the call ends. -/
theorem foldl_steps (nodes : NgraphNodes) (call : TableCall) :
    (run.steps nodes call).foldl (TableAct.apply run.ng) nodes = run.after nodes call := by
  cases call with
  | connectOperationToGraph index =>
      calc (run.steps nodes (.connectOperationToGraph index)).foldl (TableAct.apply run.ng) nodes
          = (exec (answer run.ng) (run.connection index) nodes).trace.foldl
              (fun s sc => next (answer run.ng) s sc.2) nodes := List.foldl_map
        _ = ((exec (answer run.ng) (run.connection index) nodes).trace.map Prod.snd).foldl
              (next (answer run.ng)) nodes := List.foldl_map.symm
        _ = run.after nodes (.connectOperationToGraph index) := (exec_state_eq _ _).symm
  | removeInputNode operand => rfl
  | getNodeName operand => rfl

theorem foldl_actsFrom (nodes : NgraphNodes) (calls : List TableCall) :
    (run.actsFrom nodes calls).foldl (TableAct.apply run.ng) nodes =
      calls.foldl run.after nodes := by
  induction calls generalizing nodes with
  | nil => rfl
  | cons call calls ih =>
      unfold actsFrom
      rw [List.foldl_append, foldl_steps, ih]
      rfl

theorem connection_connects (index : Nat) : Connecting (run.connection index) := by
  unfold connection
  cases hcls : OperationsFactory.getOperation (run.info.getOperation index).type with
  | none =>
      simp only [NgraphNetworkCreator.operationNode, hcls, Option.map_none]
      exact only_pure _
  | some cls =>
      simp only [NgraphNetworkCreator.operationNode, hcls, Option.map_some]
      exact class_connects hcls

/-- No step of a run adds a Parameter. -/
theorem acts_connect : ∀ act ∈ run.acts, act.connects := by
  have hsteps : ∀ nodes call, ∀ act ∈ run.steps nodes call, act.connects := by
    intro nodes call act hact
    cases call with
    | connectOperationToGraph index =>
        obtain ⟨sc, hsc, rfl⟩ := List.mem_map.mp hact
        exact (connection_connects index).all.trace nodes sc hsc
    | removeInputNode operand =>
        rw [List.mem_singleton.mp hact]
        trivial
    | getNodeName operand =>
        rw [List.mem_singleton.mp hact]
        trivial
  unfold acts
  generalize run.start = nodes
  induction run.calls generalizing nodes with
  | nil => nofun
  | cons call calls ih =>
      intro act hact
      rcases List.mem_append.mp hact with hfirst | hrest
      · exact hsteps nodes call act hfirst
      · exact ih _ act hrest

/-! ## The condition and the property -/

variable (run)

/-- The Parameter of a model input. -/
abbrev param (i : Nat) : Node := NgraphNetworkCreator.inputParam run.info i

/-- The name of a Parameter is not empty, and no other node has it. -/
def NamesParams : Prop :=
  ∀ i ∈ run.created, run.ng.getName (run.param i) ≠ "" ∧
    ∀ node, run.ng.getName node = run.ng.getName (run.param i) → node = run.param i

/-- Every operand is bound at most once. -/
def BindsOnce : Prop := (run.created ++ run.acts.filterMap TableAct.binds).Nodup

/-- A name is asked of an operand that is bound or invalid. -/
def AsksKnown (nodes : NgraphNodes) (act : TableAct) : Prop :=
  ∀ i, act.asks = some i → nodes.Known i

/-- No other operand holds the node of one that is removed. -/
def RemovesAlone (nodes : NgraphNodes) (act : TableAct) : Prop :=
  ∀ i, act.removes = some i → ∀ j, j ≠ i → ∀ output output',
    nodes.mOutputAtOperandIndex i = some output →
      nodes.mOutputAtOperandIndex j = some output' → output.1 ≠ output'.1

/-- Every step of the run is allowed in the table it meets. -/
def Meets (allowed : NgraphNodes → TableAct → Prop) : Prop :=
  Checked allowed (TableAct.apply run.ng) run.start run.acts

instance (allowed : NgraphNodes → TableAct → Prop) [∀ nodes act, Decidable (allowed nodes act)] :
    Decidable (run.Meets allowed) :=
  inferInstanceAs (Decidable (Checked _ _ _ _))

instance (nodes : NgraphNodes) (act : TableAct) : Decidable (AsksKnown nodes act) :=
  inferInstanceAs (Decidable (∀ i ∈ act.asks, nodes.bound i = true ∨ nodes.mNodeNames i = some ""))

instance : Decidable run.BindsOnce := inferInstanceAs (Decidable (List.Nodup _))

/-- The operand is invalid, or its node is no Parameter of another operand that
is still there. -/
def Removable (nodes : NgraphNodes) (i : Nat) : Prop :=
  nodes.mNodeNames i = some "" ∨
    ∀ output, nodes.mOutputAtOperandIndex i = some output → output.1 ∈ nodes.mInputParams →
      output.1 = run.param i

/-- A removal meets a removable operand. -/
def RemovesOwn (nodes : NgraphNodes) (act : TableAct) : Prop :=
  ∀ i, act.removes = some i → run.Removable nodes i

/-- The list holds the Parameters of the inputs whose recorded name is not
empty, in the order of the model inputs, and a recorded name is empty or the
name of the node bound to the operand. -/
structure Agrees (nodes : NgraphNodes) : Prop where
  params : nodes.mInputParams =
    (run.created.filter fun i => nodes.mNodeNames i ≠ some "").map run.param
  names : ∀ i name, nodes.mNodeNames i = some name → name ≠ "" →
    ∃ output, nodes.mOutputAtOperandIndex i = some output ∧ run.ng.getName output.1 = name

/-- The removal of an input's Parameter: it alone leaves the list, the other
operands keep entries and names, a second removal changes nothing, and from
then on the name of the operand is empty. -/
structure RemovesOnly (i : Nat) (nodes : NgraphNodes) (rest : List TableAct) : Prop where
  params : (nodes.removeInputNode run.ng i).mInputParams =
    (run.created.filter fun j => nodes.mNodeNames j ≠ some "" ∧ j ≠ i).map run.param
  names : ∀ j, j ≠ i →
    (nodes.removeInputNode run.ng i).mNodeNames j = nodes.mNodeNames j
  outputs : (nodes.removeInputNode run.ng i).mOutputAtOperandIndex = nodes.mOutputAtOperandIndex
  results : (nodes.removeInputNode run.ng i).mResultNodes = nodes.mResultNodes
  idempotent : (nodes.removeInputNode run.ng i).removeInputNode run.ng i =
    nodes.removeInputNode run.ng i
  empty : ∀ later ∈ rest.scanl (TableAct.apply run.ng) (nodes.removeInputNode run.ng i),
    (later.getNodeName run.ng i).1 = ""

/-- The tables agree all along the run, and a removal of an input's Parameter
removes that one only. -/
structure KeepsInputParams : Prop where
  agrees : ∀ nodes ∈ run.states, run.Agrees nodes
  removals : ∀ before i rest, run.acts = before ++ .command (.removeInputNode i) :: rest →
    i ∈ run.created →
      run.RemovesOnly i (before.foldl (TableAct.apply run.ng) run.start) rest

/-! ## One step -/

/-- The invariant of the runs that meet the condition: the tables agree, and an
input with a Parameter is bound to it. -/
structure Consistent (nodes : NgraphNodes) : Prop extends run.Agrees nodes where
  own : ∀ i ∈ run.created, nodes.mOutputAtOperandIndex i = some (run.param i, 0)

/-- What the invariant needs of one step. -/
structure Allowed (nodes : NgraphNodes) (act : TableAct) : Prop where
  connects : act.connects
  free : ∀ i, act.binds = some i → nodes.bound i ≠ true
  known : AsksKnown nodes act
  own : run.RemovesOwn nodes act

section Step

variable {run} {nodes : NgraphNodes} {i : Nat}

theorem Agrees.mem_params (h : run.Agrees nodes) {node : Node} :
    node ∈ nodes.mInputParams ↔
      ∃ j ∈ run.created, nodes.mNodeNames j ≠ some "" ∧ run.param j = node := by
  rw [h.params]
  simp [and_assoc]

/-- The list follows the order of the model inputs. -/
theorem Agrees.sublist (h : run.Agrees nodes) :
    nodes.mInputParams.Sublist (run.info.getModelInputIndexes.map run.param) := by
  have hcreated : run.created.Sublist run.info.getModelInputIndexes :=
    NgraphNetworkCreator.createdInputs_sublist _
  rw [h.params]
  exact (List.filter_sublist.trans hcreated).map _

/-- Each Parameter has its own name. -/
theorem Agrees.nodup_names (h : run.Agrees nodes) (hnames : run.NamesParams)
    (hcreated : run.created.Nodup) : (nodes.mInputParams.map run.ng.getName).Nodup := by
  rw [h.params, List.map_map]
  have hinjective : ∀ j ∈ run.created.filter fun i => nodes.mNodeNames i ≠ some "",
      ∀ k ∈ run.created.filter fun i => nodes.mNodeNames i ≠ some "",
        run.ng.getName (run.param j) = run.ng.getName (run.param k) → j = k := by
    intro j _ k hk heq
    have hk' := List.mem_of_mem_filter hk
    exact NgraphNetworkCreator.inputParam_injective ((hnames k hk').2 _ heq)
  exact List.Nodup.map_on hinjective (hcreated.filter _)

theorem Agrees.empty_notMem (h : run.Agrees nodes) (hnames : run.NamesParams) :
    "" ∉ nodes.mInputParams.map run.ng.getName := by
  intro hmem
  obtain ⟨node, hnode, hempty⟩ := List.mem_map.mp hmem
  obtain ⟨j, hj, -, rfl⟩ := h.mem_params.mp hnode
  exact (hnames j hj).1 hempty

/-- An invalid operand is passed over. -/
theorem Agrees.removeInputNode_of_invalid (h : run.Agrees nodes) (hnames : run.NamesParams)
    (hinvalid : nodes.mNodeNames i = some "") : nodes.removeInputNode run.ng i = nodes :=
  NgraphNodes.removeInputNode_of_invalid hinvalid (h.empty_notMem hnames)

/-- A name asked for that is not empty is the name of the node bound. -/
theorem Agrees.getNodeName_bound (h : run.Agrees nodes) (hknown : nodes.Known i)
    (hname : (nodes.getNodeName run.ng i).1 ≠ "") :
    ∃ output, nodes.mOutputAtOperandIndex i = some output ∧
      run.ng.getName output.1 = (nodes.getNodeName run.ng i).1 := by
  cases hrecorded : nodes.mNodeNames i with
  | some name =>
      rw [NgraphNodes.getNodeName_of_recorded hrecorded] at hname ⊢
      exact h.names i name hrecorded hname
  | none =>
      have hbound : nodes.bound i = true := hknown.resolve_right (by simp [hrecorded])
      obtain ⟨output, houtput⟩ := Option.isSome_iff_exists.mp hbound
      exact ⟨output, houtput, by simp [NgraphNodes.getNodeName, hrecorded, houtput]⟩

/-- The name of a bound operand that is not invalid is its node's. -/
theorem Agrees.getNodeName_eq (h : run.Agrees nodes) {output : Output}
    (houtput : nodes.mOutputAtOperandIndex i = some output)
    (hvalid : nodes.mNodeNames i ≠ some "") :
    (nodes.getNodeName run.ng i).1 = run.ng.getName output.1 := by
  cases hrecorded : nodes.mNodeNames i with
  | none => simp [NgraphNodes.getNodeName, hrecorded, houtput]
  | some name =>
      rw [NgraphNodes.getNodeName_of_recorded hrecorded]
      rw [hrecorded] at hvalid
      obtain ⟨bound, hbound, hname⟩ := h.names i name hrecorded fun heq => hvalid (heq ▸ rfl)
      rw [houtput] at hbound
      rw [← hname, ← Option.some.inj hbound]

/-- Asking for a name keeps the tables consistent. -/
theorem Consistent.getNodeName (h : run.Consistent nodes) (hnames : run.NamesParams)
    (hknown : nodes.Known i) :
    run.Consistent (nodes.getNodeName run.ng i).2 := by
  rw [NgraphNodes.getNodeName_snd]
  constructor
  · constructor
    · rw [h.params]
      apply congrArg (List.map run.param)
      apply List.filter_congr
      intro j hj
      by_cases hji : j = i
      · subst hji
        by_cases hinvalid : nodes.mNodeNames j = some ""
        · simp [hinvalid, NgraphNodes.getNodeName_of_recorded hinvalid]
        · simp [hinvalid, h.getNodeName_eq (h.own j hj) hinvalid, (hnames j hj).1]
      · simp [hji]
    · intro j name hrecorded hname
      by_cases hji : j = i
      · subst hji
        obtain rfl : (nodes.getNodeName run.ng j).1 = name := by simpa using hrecorded
        exact h.getNodeName_bound hknown hname
      · exact h.names j name (by simpa [hji] using hrecorded) hname
  · exact h.own

/-- The removal of an input with a Parameter. -/
theorem Consistent.removeInputNode_created (h : run.Consistent nodes) (hnames : run.NamesParams)
    (hcreated : run.created.Nodup) (hi : i ∈ run.created) :
    nodes.removeInputNode run.ng i =
      { nodes with
        mInputParams :=
          (run.created.filter fun j => nodes.mNodeNames j ≠ some "" ∧ j ≠ i).map run.param
        mNodeNames := Function.update nodes.mNodeNames i (some "") } := by
  by_cases hinvalid : nodes.mNodeNames i = some ""
  · have hothers : nodes.mInputParams =
        (run.created.filter fun j => nodes.mNodeNames j ≠ some "" ∧ j ≠ i).map run.param := by
      rw [h.params]
      apply congrArg (List.map run.param)
      apply List.filter_congr
      intro j _
      by_cases hji : j = i
      · simp [hji, hinvalid]
      · simp [hji]
    rw [h.removeInputNode_of_invalid hnames hinvalid, ← hothers, ← hinvalid,
      Function.update_eq_self]
  · have hname := h.getNodeName_eq (h.own i hi) hinvalid
    have hmem : (nodes.getNodeName run.ng i).1 ∈ nodes.mInputParams.map run.ng.getName := by
      rw [hname]
      exact List.mem_map_of_mem (h.mem_params.mpr ⟨i, hi, hinvalid, rfl⟩)
    have hothers : (nodes.mInputParams.filter fun p =>
        run.ng.getName p ≠ (nodes.getNodeName run.ng i).1) =
          (run.created.filter fun j => nodes.mNodeNames j ≠ some "" ∧ j ≠ i).map run.param := by
      rw [h.params, List.filter_map, List.filter_filter, hname]
      apply congrArg (List.map run.param)
      apply List.filter_congr
      intro j _
      have hsame : run.ng.getName (run.param j) = run.ng.getName (run.param i) ↔ j = i :=
        ⟨fun heq => NgraphNetworkCreator.inputParam_injective ((hnames i hi).2 _ heq),
          fun heq => heq ▸ rfl⟩
      simp [hsame, and_comm]
    rw [NgraphNodes.removeInputNode_of_mem (h.nodup_names hnames hcreated) hmem, hothers]

/-- The removal of any other operand leaves the Parameters alone. -/
theorem Consistent.removeInputNode_other (h : run.Consistent nodes) (hnames : run.NamesParams)
    (hi : i ∉ run.created) (hknown : nodes.Known i) (hown : run.Removable nodes i) :
    nodes.removeInputNode run.ng i = (nodes.getNodeName run.ng i).2 := by
  apply NgraphNodes.removeInputNode_of_notMem
  intro hmem
  obtain ⟨node, hnode, hname⟩ := List.mem_map.mp hmem
  obtain ⟨j, hj, -, rfl⟩ := h.mem_params.mp hnode
  have hnonempty : (nodes.getNodeName run.ng i).1 ≠ "" := hname ▸ (hnames j hj).1
  obtain ⟨output, houtput, hsame⟩ := h.getNodeName_bound hknown hnonempty
  have hparam : output.1 = run.param j := (hnames j hj).2 _ (hsame.trans hname.symm)
  rcases hown with hinvalid | hown
  · rw [NgraphNodes.getNodeName_of_recorded hinvalid] at hnonempty
    exact hnonempty rfl
  · have hi' := hown output houtput (hparam ▸ hnode)
    rw [hparam] at hi'
    exact hi (NgraphNetworkCreator.inputParam_injective hi' ▸ hj)

theorem Consistent.removeInputNode (h : run.Consistent nodes) (hnames : run.NamesParams)
    (hcreated : run.created.Nodup) (hknown : nodes.Known i) (hown : run.Removable nodes i) :
    run.Consistent (nodes.removeInputNode run.ng i) := by
  by_cases hi : i ∈ run.created
  · rw [h.removeInputNode_created hnames hcreated hi]
    constructor
    · constructor
      · apply congrArg (List.map run.param)
        apply List.filter_congr
        intro j _
        by_cases hji : j = i
        · simp [hji]
        · simp [hji]
      · intro j name hrecorded hname
        by_cases hji : j = i
        · subst hji
          obtain rfl : "" = name := by simpa using hrecorded
          exact absurd rfl hname
        · exact h.names j name (by simpa [hji] using hrecorded) hname
    · exact h.own
  · rw [h.removeInputNode_other hnames hi hknown hown]
    exact h.getNodeName hnames hknown

/-- An operand is bound that holds no node yet. -/
theorem Consistent.setOutputAtOperandIndex (h : run.Consistent nodes) (output : Option Output)
    (hfree : nodes.bound i ≠ true) : run.Consistent (nodes.setOutputAtOperandIndex i output) := by
  have hother : ∀ {j out}, nodes.mOutputAtOperandIndex j = some out → j ≠ i := by
    intro j out hout hji
    subst hji
    exact hfree (by simp [NgraphNodes.bound, hout])
  constructor
  · constructor
    · exact h.params
    · intro j name hrecorded hname
      obtain ⟨out, hout, hsame⟩ := h.names j name hrecorded hname
      exact ⟨out, (Function.update_of_ne (hother hout) _ _).trans hout, hsame⟩
  · intro j hj
    exact (Function.update_of_ne (hother (h.own j hj)) _ _).trans (h.own j hj)

/-- A step that is allowed keeps the tables consistent. -/
theorem Consistent.apply (h : run.Consistent nodes) (hnames : run.NamesParams)
    (hcreated : run.created.Nodup) {act : TableAct} (hallowed : run.Allowed nodes act) :
    run.Consistent (act.apply run.ng nodes) := by
  obtain ⟨hconnects, hfree, hknown, hown⟩ := hallowed
  have hreads : ∀ c : Cmd, c.reads →
      run.Consistent ((TableAct.command c).apply run.ng nodes) := by
    intro c hc
    rw [TableAct.apply, hc.next_answer]
    exact h
  cases act with
  | getNodeName i => exact h.getNodeName hnames (hknown i rfl)
  | command c =>
      cases c with
      | setOutputAtOperandIndex i output => exact h.setOutputAtOperandIndex output (hfree i rfl)
      | setResultNode i node => exact ⟨⟨h.params, h.names⟩, h.own⟩
      | addInputParam _ | setInvalidNode _ => exact hconnects.elim
      | removeInputNode i => exact h.removeInputNode hnames hcreated (hknown i rfl) (hown i rfl)
      | _ => exact hreads _ trivial

/-- An operand that shares its node with no other holds its own Parameter or none. -/
theorem Consistent.removesOwn (h : run.Consistent nodes) {act : TableAct}
    (halone : RemovesAlone nodes act) : run.RemovesOwn nodes act := by
  intro i hi
  apply Or.inr
  intro output houtput hmem
  obtain ⟨j, hj, -, hparam⟩ := h.mem_params.mp hmem
  by_cases hji : j = i
  · rw [← hparam, hji]
  · exact absurd hparam.symm (halone i hi j hji output _ houtput (h.own j hj))

/-- An invalid operand stays invalid. -/
theorem Agrees.apply_invalid (h : run.Agrees nodes) (hnames : run.NamesParams) {act : TableAct}
    (hconnects : act.connects) (hinvalid : nodes.mNodeNames i = some "") :
    (act.apply run.ng nodes).mNodeNames i = some "" := by
  have hreads : ∀ c : Cmd, c.reads →
      ((TableAct.command c).apply run.ng nodes).mNodeNames i = some "" := by
    intro c hc
    rw [TableAct.apply, hc.next_answer]
    exact hinvalid
  cases act with
  | getNodeName j =>
      by_cases hji : j = i
      · subst hji
        exact (congrArg (fun r => r.2.mNodeNames j)
          (NgraphNodes.getNodeName_of_recorded hinvalid)).trans hinvalid
      · exact (NgraphNodes.getNodeName_names_other hji).trans hinvalid
  | command c =>
      cases c with
      | setOutputAtOperandIndex j output => exact hinvalid
      | setResultNode j node => exact hinvalid
      | addInputParam _ | setInvalidNode _ => exact hconnects.elim
      | removeInputNode j =>
          by_cases hji : j = i
          · subst hji
            exact (congrArg (·.mNodeNames j)
              (h.removeInputNode_of_invalid hnames hinvalid)).trans hinvalid
          · exact (NgraphNodes.removeInputNode_names_other hji).trans hinvalid
      | _ => exact hreads _ trivial

/-- Where the tables agree before and after a removal, it met the condition: of
the Parameter of another operand the list would miss one. -/
theorem Agrees.removesOwn (h : run.Agrees nodes) {act : TableAct}
    (hnext : run.Agrees (act.apply run.ng nodes)) (hnames : run.NamesParams)
    (hcreated : run.created.Nodup) : run.RemovesOwn nodes act := by
  intro i hi
  obtain rfl : act = .command (.removeInputNode i) := by
    cases act with
    | getNodeName j => cases hi
    | command c =>
        cases c with
        | removeInputNode j =>
            cases hi
            rfl
        | _ => cases hi
  by_cases hinvalid : nodes.mNodeNames i = some ""
  · exact .inl hinvalid
  · apply Or.inr
    intro output houtput hmem
    by_contra hother
    obtain ⟨j, hj, hvalid, hparam⟩ := h.mem_params.mp hmem
    have hji : i ≠ j := by
      intro heq
      subst heq
      exact hother hparam.symm
    have hname := h.getNodeName_eq houtput hinvalid
    have hlisted : (nodes.getNodeName run.ng i).1 ∈ nodes.mInputParams.map run.ng.getName := by
      rw [hname]
      exact List.mem_map_of_mem hmem
    have hremoved := NgraphNodes.removeInputNode_of_mem (h.nodup_names hnames hcreated) hlisted
    have hkept : run.param j ∈ (nodes.removeInputNode run.ng i).mInputParams := by
      have hstill : (nodes.removeInputNode run.ng i).mNodeNames j ≠ some "" :=
        (NgraphNodes.removeInputNode_names_other hji).trans_ne hvalid
      exact hnext.mem_params.mpr ⟨j, hj, hstill, rfl⟩
    rw [hremoved, hname, ← hparam] at hkept
    exact of_decide_eq_true (List.mem_filter.mp hkept).2 rfl

end Step

/-! ## A whole run -/

section Whole

variable {run}

theorem start_addsParams :
    NgraphNetworkCreator.AddsParams run.info run.created {} run.start :=
  NgraphNetworkCreator.addsParams_createInputParams _ _

theorem consistent_start : run.Consistent run.start := by
  have hadds := @start_addsParams run
  have hempty : ∀ i name, run.start.mNodeNames i = some name →
      name = "" ∧ i ∉ run.created := by
    intro i name hrecorded
    rcases hadds.names i with hnone | ⟨hzero, hinvalid⟩
    · rw [hnone] at hrecorded
      cases hrecorded
    · apply And.intro (Option.some.inj (hrecorded.symm.trans hinvalid))
      intro hi
      rw [NgraphNetworkCreator.createdInputs_nonzero hi] at hzero
      cases hzero
  have hall : (run.created.filter fun i => run.start.mNodeNames i ≠ some "") = run.created := by
    apply List.filter_eq_self.mpr
    intro i hi
    exact decide_eq_true fun hinvalid => (hempty i "" hinvalid).2 hi
  constructor
  · constructor
    · rw [hall, hadds.params]
      rfl
    · intro i name hrecorded hname
      exact absurd (hempty i name hrecorded).1 hname
  · intro i hi
    exact (hadds.outputs i).trans (if_pos hi)

/-- A step changes the entry of the operand it binds. -/
theorem apply_outputs {ng : Ngraph} {nodes : NgraphNodes} {act : TableAct} {k : Nat}
    (h : act.binds ≠ some k) :
    (act.apply ng nodes).mOutputAtOperandIndex k = nodes.mOutputAtOperandIndex k := by
  cases act with
  | getNodeName i =>
      rw [TableAct.apply, NgraphNodes.getNodeName_snd]
  | command c =>
      cases hanswer : answer ng c nodes with
      | error e => rw [TableAct.apply, next_error hanswer]
      | ok rs =>
          rw [TableAct.apply, next_ok hanswer,
            (NgraphNetworkCreator.answer_tables hanswer).1]
          cases hbinding : c.binding with
          | none => rfl
          | some b =>
              have hb : b.1 ≠ k := fun heq => h (by simp [TableAct.binds, hbinding, heq])
              exact Function.update_of_ne (Ne.symm hb) _ _

/-- An operand bound once is bound where it holds no node. -/
theorem BindsOnce.meets (h : run.BindsOnce) :
    run.Meets fun nodes act => ∀ k, act.binds = some k → nodes.bound k ≠ true := by
  have hstart : ∀ k, run.start.bound k = true → k ∈ run.created := by
    intro k hk
    by_contra hnot
    have hentry := (@start_addsParams run).outputs k
    rw [if_neg hnot] at hentry
    simp [NgraphNodes.bound, hentry] at hk
  have hstep : ∀ (nodes : NgraphNodes) (act : TableAct) (k : Nat),
      (act.apply run.ng nodes).bound k = true → nodes.bound k = true ∨ act.binds = some k := by
    intro nodes act k hk
    by_cases hbinds : act.binds = some k
    · exact .inr hbinds
    · unfold NgraphNodes.bound at hk ⊢
      rw [apply_outputs hbinds] at hk
      exact .inl hk
  exact @checked_of_nodup _ _ _ _ TableAct.binds (fun nodes k => nodes.bound k = true)
    run.created run.start run.acts h hstart hstep

theorem meets_connects : run.Meets fun _ act => act.connects :=
  checked_iff_forall.mpr acts_connect

theorem meets_allowed (hbinds : run.BindsOnce) (hknown : run.Meets AsksKnown)
    (hown : run.Meets run.RemovesOwn) : run.Meets run.Allowed := by
  have hall := (meets_connects.and hbinds.meets).and (hknown.and hown)
  exact hall.mono fun nodes act h => ⟨h.1.1, h.1.2, h.2.1, h.2.2⟩

theorem removesOnly (hnames : run.NamesParams) (hcreated : run.created.Nodup) {i : Nat}
    {nodes : NgraphNodes} {rest : List TableAct} (h : run.Consistent nodes) (hi : i ∈ run.created)
    (hrest : Checked run.Allowed (TableAct.apply run.ng) (nodes.removeInputNode run.ng i) rest)
    (hnext : run.Consistent (nodes.removeInputNode run.ng i)) : run.RemovesOnly i nodes rest := by
  have hremoved := h.removeInputNode_created hnames hcreated hi
  have hinvalid : (nodes.removeInputNode run.ng i).mNodeNames i = some "" := by
    rw [hremoved]
    exact Function.update_self _ _ _
  constructor
  · rw [hremoved]
  · intro j hj
    exact NgraphNodes.removeInputNode_names_other (Ne.symm hj)
  · rw [hremoved]
  · rw [hremoved]
  · exact hnext.removeInputNode_of_invalid hnames hinvalid
  · have hlater := hrest.states (I := fun later => run.Consistent later ∧
      later.mNodeNames i = some "") ⟨hnext, hinvalid⟩ fun later act hboth hallowed =>
        ⟨hboth.1.apply hnames hcreated hallowed,
          hboth.1.apply_invalid hnames hallowed.connects hboth.2⟩
    intro later hmem
    rw [NgraphNodes.getNodeName_of_recorded (hlater later hmem).2]

/-- A run of allowed steps keeps the tables in agreement. -/
theorem keepsInputParams_of_allowed (hnames : run.NamesParams) (hcreated : run.created.Nodup)
    (hall : run.Meets run.Allowed) : run.KeepsInputParams := by
  have hstep : ∀ nodes act, run.Consistent nodes → run.Allowed nodes act →
      run.Consistent (act.apply run.ng nodes) :=
    fun nodes act h hallowed => h.apply hnames hcreated hallowed
  constructor
  · intro nodes hmem
    exact (Checked.states hall consistent_start hstep nodes hmem).toAgrees
  · intro before i rest hacts hi
    unfold Meets at hall
    rw [hacts, checked_append] at hall
    rcases hall with ⟨hbefore, hact, hrest⟩
    have hmid := hbefore.invariant consistent_start hstep
    exact removesOnly hnames hcreated hmid hi hrest (hstep _ _ hmid hact)

/-- **Operands with nodes of their own.**  Where no removed operand shares its
node, the tables agree all along. -/
theorem keepsInputParams_of_alone (hnames : run.NamesParams) (hbinds : run.BindsOnce)
    (hknown : run.Meets AsksKnown) (halone : run.Meets RemovesAlone) : run.KeepsInputParams := by
  have hcreated : run.created.Nodup := (List.nodup_append.mp hbinds).1
  have hallowed : ∀ nodes act, run.Consistent nodes →
      (act.connects ∧ ∀ i, act.binds = some i → nodes.bound i ≠ true) ∧
        AsksKnown nodes act ∧ RemovesAlone nodes act → run.Allowed nodes act :=
    fun nodes act h hact => ⟨hact.1.1, hact.1.2, hact.2.1, h.removesOwn hact.2.2⟩
  have hsteps := (meets_connects.and hbinds.meets).and (hknown.and halone)
  have hall := hsteps.with_invariant (I := run.Consistent) consistent_start
    fun nodes act h hact => h.apply hnames hcreated (hallowed nodes act h hact)
  apply keepsInputParams_of_allowed hnames hcreated
  exact hall.mono fun nodes act hboth => hallowed nodes act hboth.1 hboth.2

end Whole

/-- **The Parameters of the inputs.**  In a run whose Parameters have names of
their own, that binds no operand twice and asks no name of an unbound operand,
the tables agree all along exactly when every removal meets an operand that is
invalid or does not hold the Parameter of another one. -/
theorem keepsInputParams_iff (run : TableRun) (hnames : run.NamesParams)
    (hbinds : run.BindsOnce) (hknown : run.Meets AsksKnown) :
    run.KeepsInputParams ↔ run.Meets run.RemovesOwn := by
  have hcreated : run.created.Nodup := (List.nodup_append.mp hbinds).1
  constructor
  · intro hkeeps
    apply (checked_of_states hkeeps.agrees).mono
    intro nodes act hboth
    exact hboth.1.removesOwn hboth.2 hnames hcreated
  · intro hown
    exact keepsInputParams_of_allowed hnames hcreated (meets_allowed hbinds hknown hown)

/-! A model whose third operation is an LSTM with a coupled input gate: the
inputs of that gate are removed, of which two are the operand `gate`.  Operand 6
is a model input.  Operand 1 is the output of a `CAST` that passes its input on:
it compares the types of the operations at the two operand indexes, 0 and 1. -/

def coupledModel (gate : Nat) : Model where
  operands :=
    [{ type := .tensorFloat32, dimensions := [1, 1], lifetime := .subgraphInput },
     { type := .tensorFloat32, dimensions := [1, 1], lifetime := .temporaryVariable },
     { type := .tensorFloat32, dimensions := [1, 1], lifetime := .subgraphOutput },
     { type := .tensorFloat32, dimensions := [1, 1], lifetime := .subgraphInput },
     { type := .tensorFloat32, dimensions := [1], lifetime := .subgraphInput },
     { type := .tensorFloat32, dimensions := [1], lifetime := .subgraphInput },
     { type := .tensorFloat32, dimensions := [1, 1], lifetime := .subgraphInput },
     { type := .tensorFloat32, lifetime := .noValue },
     { type := .int32, lifetime := .constantCopy, location := { length := 4 } },
     { type := .float32, lifetime := .constantCopy, location := { offset := 4, length := 4 } },
     { type := .tensorFloat32, dimensions := [1, 3], lifetime := .subgraphOutput },
     { type := .tensorFloat32, dimensions := [1, 1], lifetime := .subgraphOutput },
     { type := .tensorFloat32, dimensions := [1, 1], lifetime := .subgraphOutput },
     { type := .tensorFloat32, dimensions := [1, 1], lifetime := .subgraphOutput }]
  operations :=
    [{ type := .cast, inputs := [0], outputs := [1] },
     { type := .cast, inputs := [1], outputs := [2] },
     { type := .lstm
       inputs := [3, gate, 3, 3, 3, gate, 3, 3, 3, 7, 5, 5, 4, 5, 5, 5, 7, 7, 3, 3, 8, 9, 9]
       outputs := [10, 11, 12, 13] }]
  inputIndexes := [0, 3, 4, 5, 6]
  outputIndexes := [2, 10, 11, 12, 13]
  operandValues := [0, 0, 0, 0, 0, 0, 0, 0]

/-- Names as ngraph gives them, as far as the Parameters of this model go. -/
def coupledName : Node → String
  | .mk (.parameter 0 .f32 [1, 1]) [] => "Parameter_0"
  | .mk (.parameter 3 .f32 [1, 1]) [] => "Parameter_1"
  | .mk (.parameter 4 .f32 [1]) [] => "Parameter_2"
  | .mk (.parameter 5 .f32 [1]) [] => "Parameter_3"
  | .mk (.parameter 6 .f32 [1, 1]) [] => "Parameter_4"
  | _ => "Node_5"

/-- The graph generation of the model. -/
def coupledRun (gate : Nat) : TableRun :=
  connecting ⟨coupledModel gate, []⟩ .cpu
    { Ngraph.permissive with getName := coupledName, getShape := fun _ => [1, 1] } 3

theorem coupledName_injective {p q : Node} (hp : coupledName p ≠ "Node_5")
    (h : coupledName q = coupledName p) : q = p := by
  unfold coupledName at h hp
  split at hp
  case h_6 => exact absurd rfl hp
  all_goals
    split at h
    all_goals first | rfl | simp at h

theorem coupledRun_namesParams (gate : Nat) : (coupledRun gate).NamesParams := by
  have hcreated : ∀ i ∈ (coupledRun 0).created, coupledName ((coupledRun 0).param i) ≠ "" ∧
      coupledName ((coupledRun 0).param i) ≠ "Node_5" := by
    decide
  intro i hi
  have hname := hcreated i hi
  exact ⟨hname.1, fun node h => coupledName_injective hname.2 h⟩

/-- The removal of a model input keeps the tables in agreement. -/
theorem coupledRun_keepsInputParams : (coupledRun 6).KeepsInputParams := by
  apply (keepsInputParams_iff (coupledRun 6) (coupledRun_namesParams 6) (by decide +kernel)
    (by decide +kernel)).mpr
  have hown : (coupledRun 6).Meets fun nodes act => ∀ i ∈ act.removes,
      nodes.mNodeNames i = some "" ∨ i ∈ (coupledRun 6).created ∧
        ∀ output ∈ nodes.mOutputAtOperandIndex i,
          coupledName output.1 = coupledName ((coupledRun 6).param i) := by
    decide +kernel
  apply hown.mono
  intro nodes act h i hi
  rcases h i hi with hinvalid | ⟨hcreated, hname⟩
  · exact .inl hinvalid
  · apply Or.inr
    intro output houtput _
    exact (coupledRun_namesParams 6 i hcreated).2 _ (hname output houtput)

/-- The removal of operand 1 erases the Parameter of operand 0, which is still
fed. -/
theorem coupledRun_loses_input :
    ¬ ∀ run : TableRun, run.NamesParams → run.BindsOnce → run.Meets AsksKnown →
      run.KeepsInputParams := by
  intro h
  have hkeeps := h (coupledRun 1) (coupledRun_namesParams 1) (by decide +kernel)
    (by decide +kernel)
  have hlast := hkeeps.agrees _ (foldl_mem_scanl List.prefix_rfl)
  have hlength := congrArg List.length hlast.params
  rw [List.length_map] at hlength
  exact absurd hlength (by decide +kernel)

/-! ## Graph generation -/

variable {run}

/-- The loop over the operations makes the connections up to one that fails. -/
theorem connectNodes_state (is : List Nat) (nodes : NgraphNodes) :
    ∃ n ≤ is.length, (exec (answer run.ng) (NgraphNetworkCreator.connectNodes
      (OperationsFactory.statics run.device run.info)
      (NgraphNetworkCreator.nodesAt run.info run.device is)) nodes).state =
        ((is.take n).map TableCall.connectOperationToGraph).foldl run.after nodes := by
  induction is generalizing nodes with
  | nil => exact ⟨0, Nat.le_refl 0, rfl⟩
  | cons i is ih =>
      unfold NgraphNetworkCreator.nodesAt
      rw [List.map_cons]
      cases hnode : NgraphNetworkCreator.operationNode run.info
          (OperationsFactory.statics run.device run.info) i with
      | none => exact ⟨0, Nat.zero_le _, rfl⟩
      | some node =>
          have hconnection : run.connection i =
              node.connectOperationToGraph (OperationsFactory.statics run.device run.info) := by
            simp [connection, hnode]
          simp only [NgraphNetworkCreator.connectNodes]
          rw [← hconnection]
          cases houtcome : (exec (answer run.ng) (run.connection i) nodes).outcome with
          | error e =>
              rw [exec_bind_error houtcome]
              exact ⟨1, Nat.succ_le_succ (Nat.zero_le _), rfl⟩
          | ok a =>
              rw [exec_bind_ok houtcome, Ran.state_after]
              obtain ⟨n, hn, hstate⟩ := ih (exec (answer run.ng) (run.connection i) nodes).state
              exact ⟨n + 1, Nat.succ_le_succ hn, hstate⟩

/-- Graph generation is a run that connects the operations in order. -/
theorem graphRun_state (info : NnapiModelInfo) (device : IntelDeviceType) (ng : Ngraph) :
    ∃ n ≤ info.getOperationsSize, (NgraphNetworkCreator.graphRun info device ng).state =
      (connecting info device ng n).acts.foldl (TableAct.apply ng)
        (connecting info device ng n).start := by
  unfold NgraphNetworkCreator.graphRun NgraphNetworkCreator.generateRun
    NgraphNetworkCreator.initializeModel
  cases hcreated : (exec (answer ng) (NgraphNetworkCreator.createInputParams info
      info.getModelInputIndexes) {}).outcome with
  | error e =>
      refine ⟨0, Nat.zero_le _, ?_⟩
      exact (congrArg Ran.state (exec_bind_error hcreated)).trans rfl
  | ok created =>
      have hrest := congrArg Ran.state (exec_bind_ok (f := fun created : Bool =>
        if created then NgraphNetworkCreator.connectNodes (OperationsFactory.statics device info)
          (NgraphNetworkCreator.nodesAt info device (List.range info.getOperationsSize))
        else pure false) hcreated)
      cases created with
      | false => exact ⟨0, Nat.zero_le _, hrest⟩
      | true =>
          obtain ⟨n, hn, hstate⟩ := @connectNodes_state (connecting info device ng 0)
            (List.range info.getOperationsSize) (connecting info device ng 0).start
          rw [List.length_range] at hn
          rw [List.take_range, Nat.min_eq_left hn] at hstate
          have hends := @foldl_actsFrom (connecting info device ng n)
            (connecting info device ng n).start (connecting info device ng n).calls
          exact ⟨n, hn, (hrest.trans hstate).trans hends.symm⟩

theorem actsFrom_append (nodes : NgraphNodes) (front calls : List TableCall) :
    run.actsFrom nodes (front ++ calls) =
      run.actsFrom nodes front ++ run.actsFrom (front.foldl run.after nodes) calls := by
  induction front generalizing nodes with
  | nil => rfl
  | cons call front ih =>
      simp only [List.cons_append, actsFrom, ih, List.append_assoc, List.foldl_cons]

/-- The steps of a call do not depend on the other calls of the run. -/
theorem actsFrom_calls (others : List TableCall) (nodes : NgraphNodes) (calls : List TableCall) :
    actsFrom { run with calls := others } nodes calls = run.actsFrom nodes calls := by
  induction calls generalizing nodes with
  | nil => rfl
  | cons call calls ih => exact congrArg (run.steps nodes call ++ ·) (ih _)

/-- **The parameters of the generated graph.**  Where the connections of all
operations meet the condition, graph generation ends with the Parameters of
the inputs whose name is not empty. -/
theorem graphRun_agrees (info : NnapiModelInfo) (device : IntelDeviceType) (ng : Ngraph)
    (hnames : (connecting info device ng info.getOperationsSize).NamesParams)
    (hbinds : (connecting info device ng info.getOperationsSize).BindsOnce)
    (hknown : (connecting info device ng info.getOperationsSize).Meets AsksKnown)
    (hown : (connecting info device ng info.getOperationsSize).Meets
      (connecting info device ng info.getOperationsSize).RemovesOwn) :
    (connecting info device ng info.getOperationsSize).Agrees
      (NgraphNetworkCreator.graphRun info device ng).state := by
  have hcreated := (List.nodup_append.mp hbinds).1
  have hkeeps := keepsInputParams_of_allowed hnames hcreated (meets_allowed hbinds hknown hown)
  obtain ⟨n, hn, hstate⟩ := graphRun_state info device ng
  have hprefix : (connecting info device ng n).acts <+:
      (connecting info device ng info.getOperationsSize).acts := by
    have hcalls : (connecting info device ng n).calls <+:
        (connecting info device ng info.getOperationsSize).calls := by
      have htake := List.take_prefix n (List.range info.getOperationsSize)
      rw [List.take_range, Nat.min_eq_left hn] at htake
      exact htake.map _
    obtain ⟨rest, hrest⟩ := hcalls
    unfold acts
    rw [← hrest, actsFrom_append]
    have hsame := @actsFrom_calls (connecting info device ng info.getOperationsSize)
      (connecting info device ng n).calls (connecting info device ng n).start
      (connecting info device ng n).calls
    exact hsame ▸ List.prefix_append _ _
  rw [hstate]
  exact hkeeps.agrees _ (foldl_mem_scanl hprefix)

end TableRun

end NnHal
