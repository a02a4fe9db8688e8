import NnHal.Building
import Mathlib.Data.List.Perm.Subperm
import NnHal.BoundNodes

/-!
# The outputs of a graph

Graph generation fills `mOutputAtOperandIndex` and `mResultNodes` through two
commands: an output is bound, and where its operand is a model output its node
is registered.  Both happen together, in the default `connectOperationToGraph`
and in the eight classes that replace it.

So the results of a run are the bindings of model outputs, and what remains is
which outputs a class binds: all it has, except that `SPLIT` counts by the
value of an input and `BIDIRECTIONAL_SEQUENCE_RNN` by the value of a flag.
-/

namespace NnHal

open Command

/-- An output bound, with its entry. -/
def Cmd.binding : Cmd → Option (Nat × Option Output)
  | .setOutputAtOperandIndex index output => some (index, output)
  | _ => none

/-- A node registered as a result, with its operand. -/
def Cmd.registration : Cmd → Option (Nat × NodePtr)
  | .setResultNode index node => some (index, node)
  | _ => none

/-- What ends the process: a division by zero, or a null pointer that is
dereferenced. -/
def Cmd.fatal : Cmd → Option Fault
  | .fault .divideByZero => some .divideByZero
  | .fault .nullNode => some .nullNode
  | _ => none

/-- The result that goes with a binding. -/
def NnapiModelInfo.resultOf (info : NnapiModelInfo) (b : Nat × Option Output) :
    Option (Nat × NodePtr) :=
  if (info.getOperand b.1).lifetime = .subgraphOutput then some (b.1, b.2.map (·.1)) else none

/-- The operand of a binding, and whether its entry holds a node. -/
def entryOf (b : Nat × Option Output) : Nat × Bool := (b.1, b.2.isSome)

/-- The entries a run binds. -/
def boundEntries {α : Type} (run : Ran NgraphNodes Cmd Stop α) : List (Nat × Bool) :=
  (run.selected Cmd.binding).map entryOf

/-- The run returned, and nothing on the way ended the process. -/
structure Completes {α : Type} (run : Ran NgraphNodes Cmd Stop α) : Prop where
  returned : ∃ a, run.outcome = .ok a
  alive : run.selected Cmd.fatal = []

section Completes

variable {α β : Type} {p : Gen α} {f : α → Gen β} {ng : Ngraph} {s : NgraphNodes}

/-- A sequence that completes is two programs that do. -/
theorem Completes.of_bind (h : Completes (exec (answer ng) (p >>= f) s)) :
    ∃ a, (exec (answer ng) p s).outcome = .ok a ∧ Completes (exec (answer ng) p s) ∧
      Completes (exec (answer ng) (f a) (exec (answer ng) p s).state) := by
  rcases h with ⟨⟨b, hb⟩, halive⟩
  cases hp : (exec (answer ng) p s).outcome with
  | error e =>
      rw [exec_bind_error hp] at hb
      cases hb
  | ok a =>
      rw [exec_bind_ok hp] at hb halive
      rw [Ran.selected_after] at halive
      obtain ⟨hfront, hrest⟩ := List.append_eq_nil_iff.mp halive
      exact ⟨a, rfl, ⟨⟨a, hp⟩, hfront⟩, ⟨⟨b, hb⟩, hrest⟩⟩

end Completes

/-! ## Programs that do not complete -/

/-- Every run of the program that returns has ended the process on the way. -/
def Dies {α : Type} (p : Gen α) : Prop :=
  ∀ ng s, ¬ Completes (exec (answer ng) p s)

namespace Dies

variable {α β : Type} {p : Gen α} {f : α → Gen β}

theorem left (hp : Dies p) : Dies (p >>= f) := by
  intro ng s h
  rcases h.of_bind with ⟨a, -, hfirst, -⟩
  exact hp ng s hfirst

theorem yields {Q : α → Prop} (hy : Yields Q p) (hf : ∀ a, Q a → Dies (f a)) :
    Dies (p >>= f) := by
  intro ng s h
  rcases h.of_bind with ⟨a, ha, -, hsecond⟩
  exact hf a (hy.outcome ha) ng _ hsecond

theorem right (hf : ∀ a, Dies (f a)) : Dies (p >>= f) :=
  yields (yields_true p) fun a _ => hf a

end Dies

theorem dies_divInt (a : Int) : Dies (divInt a 0) :=
  Dies.left fun _ _ h => by cases h.alive

theorem dies_deref : Dies (deref none) :=
  Dies.left fun _ _ h => by cases h.alive

/-- Without a time step the steps cannot be joined. -/
theorem dies_joinSteps (inputNode : Node) (outputs : List Node) :
    Dies (joinSteps inputNode 0 outputs) := by
  apply Dies.right
  intro outputNode
  apply Dies.right
  intro rows
  exact Dies.left (dies_divInt rows)

/-- A null pointer among those dereferenced. -/
theorem dies_mapM_deref {n : Nat} (hn : n ≠ 0) : Dies ((List.replicate n none).mapM deref) := by
  obtain ⟨m, rfl⟩ := Nat.exists_eq_succ_of_ne_zero hn
  rw [List.replicate_succ, List.mapM_cons]
  exact Dies.left dies_deref

section Recurrent

variable {self : OperationsBase}

theorem UnidirectionalSequenceRNN.dies_createNode
    (h : self.timeSteps (UnidirectionalSequenceRNN.isTimeMajor self) = 0) :
    Dies (UnidirectionalSequenceRNN.createNode self) := by
  refine .right fun _ => .right fun _ => .right fun _ => .right fun _ => .right fun _ => ?_
  refine .right fun _ => .yields (NnapiModelInfo.yields_getConstOperand .uint32 _) ?_
  intro timeMajor heq
  subst heq
  refine .right fun _ => .yields (yields_maxTime _) ?_
  intro maxTime htime
  have hzero : maxTime = 0 := htime.trans h
  subst hzero
  refine .right fun _ => .right fun _ => .right fun outputs => ?_
  exact .left (dies_joinSteps _ _)

/-- Both directions die without a step, and the backward one where its counter
starts below zero: then it leaves every output null. -/
theorem BidirectionalSequenceRNN.dies_createNode
    (h : self.timeSteps (BidirectionalSequenceRNN.isTimeMajor self) = 0 ∨
      2 ^ 31 < self.timeSteps (BidirectionalSequenceRNN.isTimeMajor self)) :
    Dies (BidirectionalSequenceRNN.createNode self) := by
  refine .right fun _ => .right fun _ => .right fun _ => .right fun _ => .right fun _ => ?_
  refine .right fun _ => .right fun _ => .right fun _ => .right fun _ => .right fun _ => ?_
  refine .right fun _ => .right fun _ => .right fun _ => .right fun _ => ?_
  refine .yields (NnapiModelInfo.yields_getConstOperand .uint8 _) ?_
  intro timeMajor heq
  subst heq
  refine .right fun _ => .yields (yields_maxTime _) ?_
  intro maxTime htime
  change maxTime = self.timeSteps (isTimeMajor self) at htime
  rw [← htime] at h
  refine .right fun _ => .right fun _ => .right fun _ => .right fun _ => .right fun _ => ?_
  refine .yields (forward_length _) fun steps hsteps => ?_
  refine .yields (backward_length _) fun outputs houtputs => ?_
  rcases h with hzero | hlarge
  · subst hzero
    exact .left (dies_joinSteps _ _)
  · have hnone : outputs = [] := by
      unfold backwardSteps at houtputs
      rw [if_neg (by omega)] at houtputs
      exact List.eq_nil_of_length_eq_zero houtputs
    subst hnone
    refine .right fun _ => .left ?_
    simp only [backwardOutputs, List.length_nil, Nat.sub_zero, List.reverse_nil, List.map_nil,
      List.append_nil]
    exact dies_mapM_deref (by omega)

end Recurrent

/-! ## Results come with bindings -/

/-- Where the program returns, the results it registers are those of the outputs
it binds. -/
def Registers (info : NnapiModelInfo) {α : Type} (p : Gen α) : Prop :=
  ∀ ng s a, (exec (answer ng) p s).outcome = .ok a →
    (exec (answer ng) p s).selected Cmd.registration =
      ((exec (answer ng) p s).selected Cmd.binding).filterMap info.resultOf

section Registers

variable {info : NnapiModelInfo} {self : OperationsBase} {α β : Type} {p : Gen α}
variable {f : α → Gen β}

theorem Building.binds_none (hp : Building p) (ng : Ngraph) (s : NgraphNodes) :
    (exec (answer ng) p s).selected Cmd.binding = [] := by
  apply List.filterMap_eq_nil_iff.mpr
  intro sc hsc
  have hbuilds := hp.all.trace s sc hsc
  cases hc : sc.2 <;> simp_all [Cmd.builds, Cmd.binding]

theorem Building.registers_none (hp : Building p) (ng : Ngraph) (s : NgraphNodes) :
    (exec (answer ng) p s).selected Cmd.registration = [] := by
  apply List.filterMap_eq_nil_iff.mpr
  intro sc hsc
  have hbuilds := hp.all.trace s sc hsc
  cases hc : sc.2 <;> simp_all [Cmd.builds, Cmd.registration]

theorem Building.registers (hp : Building p) : Registers info p := by
  intro ng s a _
  rw [hp.binds_none, hp.registers_none]
  rfl

theorem registers_pure (a : α) : Registers info (pure a : Gen α) :=
  Building.registers (only_pure a)

theorem Registers.bind (hp : Registers info p) (hf : ∀ a, Registers info (f a)) :
    Registers info (p >>= f) := by
  intro ng s b hb
  cases ha : (exec (answer ng) p s).outcome with
  | error e =>
      rw [exec_bind_error ha] at hb
      cases hb
  | ok a =>
      rw [exec_bind_ok ha] at hb ⊢
      have hfirst := hp ng s a ha
      have hsecond := hf a ng _ b hb
      rw [Ran.selected_after, Ran.selected_after, List.filterMap_append, hsecond]
      exact congrArg (· ++ _) hfirst

/-- A step that only builds. -/
theorem Registers.step [hp : Building p] (hf : ∀ a, Registers info (f a)) :
    Registers info (p >>= f) :=
  hp.registers.bind hf

theorem Registers.ite {b : Prop} [Decidable b] {p q : Gen α} (hp : Registers info p)
    (hq : Registers info q) : Registers info (if b then p else q) := by
  split
  · exact hp
  · exact hq

theorem registers_setOperationOutput (index : Nat) (outNode : NodePtr) :
    Registers self.sModelInfo (self.setOperationOutput index outNode) := by
  intro ng s a _
  unfold OperationsBase.setOperationOutput OperationsBase.addModelOutput
  by_cases h : (self.sModelInfo.getOperand index).lifetime = .subgraphOutput
  · cases outNode <;>
      simp [h, exec, Prog.perform, answer, Ran.selected, Cmd.registration, Cmd.binding,
        NnapiModelInfo.resultOf]
  · simp [h, exec, Prog.perform, answer, Ran.selected, Cmd.registration, Cmd.binding,
      NnapiModelInfo.resultOf]

theorem registers_setConverted (index : Nat) {outNode : Option (Gen Node)}
    (hnode : ∀ q ∈ outNode, Building q) :
    Registers self.sModelInfo (self.setConverted index outNode) := by
  cases outNode with
  | none => exact registers_setOperationOutput index none
  | some convert =>
      exact (hnode convert rfl).registers.bind fun node => registers_setOperationOutput index _

/-- The quantization of the default connection only reads. -/
theorem reading_quantized (node : Node) :
    Reading (match self.sModelInfo.getOperandType self.mDefaultOutputIndex with
      | .tensorQuant8Asymm => self.quantizeNode node self.mDefaultOutputIndex .u8
      | .tensorQuant8AsymmSigned | .tensorQuant8Symm =>
          self.quantizeNode node self.mDefaultOutputIndex .i8
      | .tensorQuant16Asymm => self.quantizeNode node self.mDefaultOutputIndex .u16
      | .tensorQuant16Symm => self.quantizeNode node self.mDefaultOutputIndex .i16
      | _ => pure node) := by
  split <;> infer_instance

/-- The default connection quantizes, registers and binds, in this order. -/
theorem registers_connectDefault {q : Gen Node} (hq : Building q) :
    Registers self.sModelInfo (self.connectDefault q) := by
  refine hq.registers.bind fun node => (reading_quantized node).building.registers.bind fun _ => ?_
  intro ng s a _
  unfold OperationsBase.addModelOutput
  by_cases h : (self.sModelInfo.getOperand self.mDefaultOutputIndex).lifetime = .subgraphOutput
  · simp [h, exec, Prog.perform, answer, Ran.selected, Cmd.registration, Cmd.binding,
      NnapiModelInfo.resultOf]
  · simp [h, exec, Prog.perform, answer, Ran.selected, Cmd.registration, Cmd.binding,
      NnapiModelInfo.resultOf]

theorem Registers.forM {ι : Type} {g : ι → Gen PUnit} (h : ∀ i, Registers info (g i))
    (l : List ι) : Registers info (ForM.forM l g) := by
  induction l with
  | nil => exact registers_pure PUnit.unit
  | cons i l ih => exact (h i).bind fun _ => ih

end Registers

/-! ## The eight classes that bind their outputs themselves -/

section Classes

variable {self : OperationsBase}

theorem Quantize.registers : Registers self.sModelInfo (Quantize.createNode self) :=
  .step fun _ => .step fun _ => registers_setOperationOutput _ _

theorem Cast.registers : Registers self.sModelInfo (Cast.createNode self) :=
  .step fun _ => .step fun _ => .step fun _ => .step fun _ => registers_setOperationOutput _ _

theorem RNN.registers : Registers self.sModelInfo (RNN.createNode self) := by
  refine .step fun _ => .step fun _ => .step fun _ => .step fun _ => .step fun _ => ?_
  refine .step fun _ => .step fun _ => .step fun _ => .step fun _ => .step fun _ => ?_
  refine .step fun _ => (registers_setOperationOutput _ _).bind fun _ => ?_
  exact registers_setOperationOutput _ _

theorem LSTM.registers : Registers self.sModelInfo (LSTM.createNode self) := by
  refine .step fun _ => .step fun _ => .step fun _ => .step fun _ => .step fun _ => ?_
  refine .step fun _ => .step fun _ => .step fun _ => .step fun _ => .step fun _ => ?_
  refine .step fun _ => .step fun _ => .step fun _ => .step fun _ => .step fun _ => ?_
  refine .step fun outputs => (registers_setOperationOutput _ _).bind fun _ => ?_
  refine (registers_setOperationOutput _ _).bind fun _ => ?_
  refine (registers_setOperationOutput _ _).bind fun _ => ?_
  exact registers_setOperationOutput _ _

theorem TopkV2.registers : Registers self.sModelInfo (TopkV2.createNode self) := by
  refine .step fun _ => .step fun _ => .step fun _ => .step fun topk => ?_
  apply Registers.forM _ [0, 1]
  intro i
  apply registers_setConverted
  intro q hq
  exact (TopkV2.reading_outNode topk i q hq).building

theorem Split.registers : Registers self.sModelInfo (Split.createNode self) := by
  refine .step fun _ => .step fun _ => .step fun _ => .step fun _ => .step fun split => ?_
  apply Registers.forM
  intro i
  have hindex : Reading (Split.outputAt self i) := reading_elementAt _ _
  apply hindex.building.registers.bind
  intro index
  apply registers_setConverted
  intro q hq
  exact (Split.reading_outNode split i q hq).building

theorem UnidirectionalSequenceRNN.registers :
    Registers self.sModelInfo (UnidirectionalSequenceRNN.createNode self) := by
  refine .step fun _ => .step fun _ => .step fun _ => .step fun _ => .step fun _ => ?_
  refine .step fun _ => .step fun _ => .step fun _ => .step fun _ => .step fun _ => ?_
  refine .step fun _ => .step fun _ => .step fun _ => .step fun _ => ?_
  refine (registers_setOperationOutput _ _).bind fun _ => ?_
  exact .ite (registers_setOperationOutput _ _) (registers_pure _)

theorem BidirectionalSequenceRNN.registers :
    Registers self.sModelInfo (BidirectionalSequenceRNN.createNode self) := by
  have houtputs : ∀ mergeOutputs fw bw fwLast bwLast,
      Registers self.sModelInfo (setOutputs self mergeOutputs fw bw fwLast bwLast) := by
    intro mergeOutputs fw bw fwLast bwLast
    refine (registers_setOperationOutput _ _).bind fun _ => ?_
    refine (Registers.ite (registers_pure _) (registers_setOperationOutput _ _)).bind
      fun _ => .ite ?_ (registers_pure _)
    exact (registers_setOperationOutput _ _).bind fun _ => registers_setOperationOutput _ _
  refine .step fun _ => .step fun _ => .step fun _ => .step fun _ => .step fun _ => ?_
  refine .step fun _ => .step fun _ => .step fun _ => .step fun _ => .step fun _ => ?_
  refine .step fun _ => .step fun _ => .step fun _ => .step fun _ => .step fun _ => ?_
  refine .step fun _ => .step fun _ => .step fun _ => .step fun _ => .step fun _ => ?_
  refine .step fun _ => .step fun _ => .step fun _ => .step fun _ => .step fun _ => ?_
  refine .step fun _ => .step fun _ => .step fun _ => .step fun _ => .step fun _ => ?_
  exact houtputs _ _ _ _ _

end Classes

/-! ## What a class binds -/

/-- The entry a touch binds. -/
def Access.entry : Access → Option (Nat × Bool)
  | .set index bound => some (index, bound)
  | _ => none

/-- The entry a use binds. -/
def Use.entry : Use → Option (Nat × Bool)
  | .set operand bound => some (operand, bound)
  | _ => none

section Entries

variable {self : OperationsBase} {α : Type}

theorem boundEntries_eq (run : Ran NgraphNodes Cmd Stop α) :
    boundEntries run = (run.selected Cmd.access).filterMap Access.entry := by
  unfold boundEntries Ran.selected
  rw [List.map_filterMap, List.filterMap_filterMap]
  apply List.filterMap_congr
  intro sc _
  rcases hc : sc.2 with f | _ | _ | _ | _ | _ | _ | _ | _ | _ | _ | _ | _ | _
  · cases f <;> rfl
  all_goals rfl

theorem entries_elsewhere {as : List Access} (h : ∀ a ∈ as, a.elsewhere = true) :
    as.filterMap Access.entry = [] := by
  apply List.filterMap_eq_nil_iff.mpr
  intro a ha
  have helsewhere := h a ha
  cases a <;> first | rfl | cases helsewhere

theorem entries_accesses (u : Use) :
    (self.accesses u).filterMap Access.entry = u.entry.toList := by
  cases u with
  | scalar T input | vector T input => exact entries_elsewhere (readAccesses_elsewhere _ _)
  | dequantize operand => exact entries_elsewhere (dequantizeAccesses_elsewhere _ _)
  | channelQuant input =>
      simp only [OperationsBase.accesses, OperationsBase.channelQuantAccesses]
      split <;> rfl
  | rawOutput input | remove input | set operand bound => rfl
  | node input dequantize =>
      have hrest := entries_elsewhere (dequantizedAccesses_elsewhere self (self.inputIndex input)
        (dequantize && (self.sModelInfo.getOperandType (self.inputIndex input)).isQuantized))
      simp only [OperationsBase.accesses, OperationsBase.nodeAccesses]
      split
      · split
        · rfl
        · rw [List.filterMap_append, hrest]
          exact congrArg (· ++ []) (entries_elsewhere (readAccesses_elsewhere _ _))
      · exact hrest

theorem entries_flatMap (us : List Use) :
    (us.flatMap self.accesses).filterMap Access.entry = us.filterMap Use.entry := by
  induction us with
  | nil => rfl
  | cons u us ih =>
      rw [List.flatMap_cons, List.filterMap_append, entries_accesses, List.filterMap_cons, ih]
      cases u.entry <;> rfl

/-- A run that returns binds what its uses say. -/
theorem Uses.entries {p : Gen α} {us : List Use} (hp : Uses self p us) {ng : Ngraph}
    {s : NgraphNodes} {a : α} (ha : (exec (answer ng) p s).outcome = .ok a) :
    boundEntries (exec (answer ng) p s) = us.filterMap Use.entry := by
  rw [boundEntries_eq, Follows.trace_eq hp ha]
  exact entries_flatMap us

/-- In a sequence that returns, the entries of the first part come first. -/
theorem entries_bind {β : Type} {p : Gen α} {f : α → Gen β} {ng : Ngraph} {s : NgraphNodes}
    {b : β} (hb : (exec (answer ng) (p >>= f) s).outcome = .ok b) :
    ∃ a, (exec (answer ng) p s).outcome = .ok a ∧
      (exec (answer ng) (f a) (exec (answer ng) p s).state).outcome = .ok b ∧
      boundEntries (exec (answer ng) (p >>= f) s) =
        boundEntries (exec (answer ng) p s) ++
          boundEntries (exec (answer ng) (f a) (exec (answer ng) p s).state) := by
  cases ha : (exec (answer ng) p s).outcome with
  | error e =>
      rw [exec_bind_error ha] at hb
      cases hb
  | ok a =>
      rw [exec_bind_ok ha] at hb ⊢
      refine ⟨a, rfl, hb, ?_⟩
      unfold boundEntries
      rw [Ran.selected_after, List.map_append]
      rfl

theorem Building.entries_nil {p : Gen α} (hp : Building p) (ng : Ngraph) (s : NgraphNodes) :
    boundEntries (exec (answer ng) p s) = [] := by
  unfold boundEntries
  rw [hp.binds_none]
  rfl

theorem connectDefault_entries {q : Gen Node} (hq : Building q) {ng : Ngraph} {s : NgraphNodes}
    {a : Unit} (ha : (exec (answer ng) (self.connectDefault q) s).outcome = .ok a) :
    boundEntries (exec (answer ng) (self.connectDefault q) s) =
      [(self.mDefaultOutputIndex, true)] := by
  unfold OperationsBase.connectDefault at ha ⊢
  obtain ⟨node, -, hnode, hfirst⟩ := entries_bind ha
  obtain ⟨outputNode, -, hlast, hsecond⟩ := entries_bind hnode
  have hreads := (@reading_quantized self node).building
  have hquantized := hreads.entries_nil ng (exec (answer ng) q s).state
  rw [hfirst, hsecond, hq.entries_nil, List.nil_append]
  refine (congrArg (· ++ _) hquantized).trans ?_
  unfold OperationsBase.addModelOutput
  by_cases h : (self.sModelInfo.getOperand self.mDefaultOutputIndex).lifetime = .subgraphOutput
  · simp [h, exec, Prog.perform, answer, Ran.selected, Cmd.binding, boundEntries, entryOf]
  · simp [h, exec, Prog.perform, answer, Ran.selected, Cmd.binding, boundEntries, entryOf]

end Entries

/-! ## The classes one by one -/

/-- What NNAPI's signatures say of the outputs of an operation: their number,
and where a class branches on a type that it is one of NNAPI's. -/
def Operation.outputSignature (model : Model) (operation : Operation) : Bool :=
  match operation.type with
  | .lstm => operation.outputs.length = 4
  | .rnn => operation.outputs.length = 2
  | .unidirectionalSequenceRnn => operation.outputs.length ∈ [1, 2]
  | .bidirectionalSequenceRnn => operation.outputs.length ∈ [1, 2, 3, 4]
  | .split => Split.converts (model.operand (operation.inputs.getD 0 0)).type
  | .topkV2 => operation.outputs.length = 2 ∧
      ∀ o ∈ operation.outputs, TopkV2.converts (model.operand o).type = true
  | .other _ => true
  | _ => operation.outputs.length = 1

/-- The outputs the class binds, merged or apart, with the last states where the
operation has more than two outputs. -/
def BidirectionalSequenceRNN.boundOutputs (self : OperationsBase) : Nat :=
  (if mergeOutputs self then 1 else 2) + if self.outputsSize > 2 then 2 else 0

/-- The number of outputs the class of an operation binds: as many as the
operation has, save that two classes count by the value of an input. -/
def OperationsBase.boundOutputs (self : OperationsBase) : Nat :=
  match (self.sModelInfo.getOperation self.mNnapiOperationIndex).type with
  | .split => Split.numSplits self
  | .bidirectionalSequenceRnn => BidirectionalSequenceRNN.boundOutputs self
  | _ => self.outputsSize

namespace OperationClass

/-- The class keeps the default connection, and its `createNode` only builds. -/
def KeepsDefault (cls : OperationClass) : Prop :=
  ∃ createNode : OperationsBase → Gen Node, (∀ self, Building (createNode self)) ∧
    cls.connectOperationToGraph = fun self => self.connectDefault (createNode self)

end OperationClass

/-- The classes with a connection of their own. -/
def OperationType.bindsItself (type : OperationType) : Bool :=
  type ∈ [OperationType.bidirectionalSequenceRnn, .cast, .lstm, .quantize, .rnn, .split, .topkV2,
    .unidirectionalSequenceRnn]

theorem OperationClass.default_ofNode {createNode : OperationsBase → Gen Node}
    {us : OperationsBase → List Use} {h : ∀ self, Uses self (createNode self) (us self)}
    {validate : OperationsBase → Gen Bool} (hreads : ∀ self, Reading (createNode self)) :
    ∃ node : OperationsBase → Gen Node, (∀ self, Reading (node self)) ∧
      (ofNode createNode h validate).connectOperationToGraph = fun self =>
        self.connectDefault (node self) :=
  ⟨createNode, hreads, rfl⟩

open OperationClass in
/-- Every other class keeps the default connection, with a `createNode` that
only reads. -/
theorem OperationsFactory.reads_createNode {type : OperationType} {cls : OperationClass}
    (h : OperationsFactory.getOperation type = some cls) (htype : type.bindsItself = false) :
    ∃ createNode : OperationsBase → Gen Node, (∀ self, Reading (createNode self)) ∧
      cls.connectOperationToGraph = fun self => self.connectDefault (createNode self) := by
  cases type
  case bidirectionalSequenceRnn | cast | lstm | quantize | rnn | split | topkV2
      | unidirectionalSequenceRnn => cases htype
  case other => cases h
  all_goals obtain rfl := Option.some.inj h
  case abs | exp | floor | hardSwish | log | logicalNot | logistic | neg | relu | relu1 | relu6
      | sqrt | sin | tanh =>
    exact default_ofNode fun _ => reading_unaryNode _
  case equal | greater | greaterEqual | less | lessEqual | logicalAnd | logicalOr | maximum
      | minimum | notEqual | pow | prelu =>
    exact default_ofNode fun _ => reading_binaryNode _
  case div | mul | sub => exact default_ofNode fun _ => reading_activatedNode _
  case reduceAll | reduceAny | reduceMax | reduceMin | reduceProd | reduceSum =>
    exact default_ofNode fun _ => reading_reduceNode _
  case argmax | argmin => exact default_ofNode fun _ => reading_argNode _
  case depthToSpace | spaceToDepth => exact default_ofNode fun _ => reading_blockNode _
  case conv2d | depthwiseConv2d | groupedConv2d => exact default_ofNode fun _ => reading_convNode _
  all_goals exact default_ofNode fun _ => inferInstance

theorem OperationsFactory.keepsDefault {type : OperationType} {cls : OperationClass}
    (h : OperationsFactory.getOperation type = some cls) (htype : type.bindsItself = false) :
    cls.KeepsDefault := by
  obtain ⟨createNode, hreads, hconnect⟩ := reads_createNode h htype
  exact ⟨createNode, fun self => (hreads self).building, hconnect⟩

section ClassEntries

variable {self : OperationsBase} {ng : Ngraph} {s : NgraphNodes}

/-- The outputs of the operation. -/
def OperationsBase.outputs (self : OperationsBase) : List Nat :=
  (self.sModelInfo.getOperation self.mNnapiOperationIndex).outputs

theorem outputIndex_eq (i : Nat) : self.outputIndex i = self.outputs.getD i 0 := rfl

/-- The first outputs, each with its position. -/
theorem map_range_outputIndex {n : Nat} (hn : n ≤ self.outputs.length) :
    (List.range n).map (fun i => (self.outputIndex i, true)) =
      (self.outputs.take n).map fun o => (o, true) := by
  apply List.ext_getElem
  · simp [hn]
  · intro i hi _
    have hlt : i < self.outputs.length := by
      simp only [List.length_map, List.length_range] at hi
      omega
    simp [outputIndex_eq, hlt]

theorem map_outputs :
    self.outputs.map (fun o => (o, true)) =
      (List.range self.outputs.length).map fun i => (self.outputIndex i, true) := by
  rw [map_range_outputIndex (Nat.le_refl _), List.take_length]

theorem Split.entries (hconverts : Split.converts (self.getInputOperand 0).type = true)
    (hrange : Split.numSplits self ≤ self.outputs.length) {a : Unit}
    (ha : (exec (answer ng) (Split.createNode self) s).outcome = .ok a) :
    boundEntries (exec (answer ng) (Split.createNode self) s) =
      (self.outputs.take (Split.numSplits self)).map fun o => (o, true) := by
  rw [Split.createNode_uses.entries ha, ← map_range_outputIndex hrange]
  unfold Split.uses
  rw [List.filterMap_append, hconverts]
  change List.filterMap Use.entry _ = _
  induction List.range (Split.numSplits self) with
  | nil => rfl
  | cons i is ih => simpa [List.filterMap_cons, Use.entry] using ih

theorem TopkV2.entries (hlength : self.outputs.length = 2)
    (hconverts : ∀ o ∈ self.outputs,
      TopkV2.converts (self.sModelInfo.getOperand o).type = true) {a : Unit}
    (ha : (exec (answer ng) (TopkV2.createNode self) s).outcome = .ok a) :
    boundEntries (exec (answer ng) (TopkV2.createNode self) s) =
      self.outputs.map fun o => (o, true) := by
  obtain ⟨o, o', houtputs⟩ := List.length_eq_two.mp hlength
  have hmem : ∀ i < 2, TopkV2.converts (self.getOutputOperand i).type = true := by
    intro i hi
    refine hconverts (self.outputIndex i) ?_
    rw [outputIndex_eq, ← List.getElem_eq_getD (h := by omega)]
    exact List.getElem_mem _
  rw [TopkV2.createNode_uses.entries ha]
  simp [TopkV2.uses, List.filterMap_cons, Use.entry, hmem, outputIndex_eq, houtputs]

theorem UnidirectionalSequenceRNN.entries (hlength : self.outputs.length ∈ [1, 2])
    (hrun : Completes (exec (answer ng) (UnidirectionalSequenceRNN.createNode self) s)) :
    boundEntries (exec (answer ng) (UnidirectionalSequenceRNN.createNode self) s) =
      self.outputs.map fun o => (o, true) := by
  have hsteps : self.timeSteps (isTimeMajor self) ≠ 0 :=
    fun h => dies_createNode h ng s hrun
  rcases hrun.returned with ⟨a, ha⟩
  have hsize : self.outputsSize = self.outputs.length := rfl
  rw [UnidirectionalSequenceRNN.createNode_uses.entries ha]
  rcases List.mem_pair.mp hlength with h | h
  · obtain ⟨o, houtputs⟩ := List.length_eq_one_iff.mp h
    simp [uses, List.filterMap_cons, Use.entry, hsize, outputIndex_eq, houtputs]
  · obtain ⟨o, o', houtputs⟩ := List.length_eq_two.mp h
    simp [uses, List.filterMap_cons, Use.entry, hsize, outputIndex_eq, houtputs, hsteps]

theorem BidirectionalSequenceRNN.entries
    (hrange : BidirectionalSequenceRNN.boundOutputs self ≤ self.outputs.length)
    (hrun : Completes (exec (answer ng) (BidirectionalSequenceRNN.createNode self) s)) :
    boundEntries (exec (answer ng) (BidirectionalSequenceRNN.createNode self) s) =
      (self.outputs.take (BidirectionalSequenceRNN.boundOutputs self)).map fun o => (o, true) := by
  have hzero : self.timeSteps (isTimeMajor self) ≠ 0 :=
    fun h => dies_createNode (.inl h) ng s hrun
  have hlarge : self.timeSteps (isTimeMajor self) ≤ 2 ^ 31 :=
    Nat.not_lt.mp fun h => dies_createNode (.inr h) ng s hrun
  have hforward : hasForwardState self = true := by simpa [hasForwardState] using hzero
  have hbackward : hasBackwardState self = true := by simpa [hasBackwardState, hzero] using hlarge
  have hremove : (removeUses self).filterMap Use.entry = [] := by
    unfold removeUses
    split <;> rfl
  rcases hrun.returned with ⟨a, ha⟩
  rw [BidirectionalSequenceRNN.createNode_uses.entries ha, ← map_range_outputIndex hrange]
  have huses : (uses self).filterMap Use.entry = (outputUses self).filterMap Use.entry := by
    change ((removeUses self) ++ _).filterMap Use.entry = _
    rw [List.filterMap_append, hremove]
    rfl
  rw [huses]
  unfold outputUses BidirectionalSequenceRNN.boundOutputs firstState
  cases mergeOutputs self <;> by_cases hstates : self.outputsSize > 2 <;>
    simp [hstates, hforward, hbackward, Use.entry, List.range_succ]

theorem getD_zero_of_length_one {l : List Nat} (h : l.length = 1) : [l.getD 0 0] = l := by
  obtain ⟨o, rfl⟩ := List.length_eq_one_iff.mp h
  rfl

theorem LSTM.uses_entries :
    (LSTM.uses self).filterMap Use.entry = (LSTM.outputUses self).filterMap Use.entry := by
  have hgates : ∀ m index, (LSTM.gateUses m index).filterMap Use.entry = [] := by
    intro m index
    unfold LSTM.gateUses LSTM.inputGateUses
    split
    · split <;> rfl
    · rfl
  have hpeephole : ∀ m, (LSTM.peepholeUses m).filterMap Use.entry = [] := by
    intro m
    unfold LSTM.peepholeUses
    split
    · split <;> rfl
    · rfl
  have hprojection : ∀ m, (LSTM.projectionUses self m).filterMap Use.entry = [] := by
    intro m
    unfold LSTM.projectionUses
    split
    · split <;> rfl
    · rfl
  have hclipping : ∀ m, (LSTM.projectionClippingUses self m).filterMap Use.entry = [] := by
    intro m
    unfold LSTM.projectionClippingUses
    split <;> rfl
  have hlayerNorm : ∀ m, (LSTM.layerNormUses m).filterMap Use.entry = [] := by
    intro m
    unfold LSTM.layerNormUses
    split
    · split <;> rfl
    · rfl
  simp [LSTM.uses, List.filterMap_cons, hgates, hpeephole, hprojection, hclipping, hlayerNorm,
    Use.entry]

theorem boundOutputs_of_type {type : OperationType} :
    (self.sModelInfo.getOperation self.mNnapiOperationIndex).type = type →
    self.boundOutputs = match type with
      | .split => Split.numSplits self
      | .bidirectionalSequenceRnn => BidirectionalSequenceRNN.boundOutputs self
      | _ => self.outputs.length := by
  intro heq
  subst heq
  rfl

/-- A class with one output binds it. -/
theorem default_entries {type : OperationType} {cls : OperationClass}
    (hcls : OperationsFactory.getOperation type = some cls)
    (htype : (self.sModelInfo.getOperation self.mNnapiOperationIndex).type = type)
    (hdefault : self.mDefaultOutputIndex = self.outputIndex 0)
    (hsignature : (self.sModelInfo.getOperation self.mNnapiOperationIndex).outputSignature
      self.sModelInfo.mModel = true)
    (hown : type.bindsItself = false) {a : Unit}
    (ha : (exec (answer ng) (cls.connectOperationToGraph self) s).outcome = .ok a) :
    boundEntries (exec (answer ng) (cls.connectOperationToGraph self) s) =
      (self.outputs.take self.boundOutputs).map fun o => (o, true) := by
  obtain ⟨createNode, hbuilds, hconnect⟩ := OperationsFactory.keepsDefault hcls hown
  have hone : self.outputs.length = 1 := by
    unfold Operation.outputSignature at hsignature
    rw [htype] at hsignature
    cases type <;> first
      | exact of_decide_eq_true hsignature
      | exact absurd hown (by decide)
      | cases hcls
  have hall : self.boundOutputs = self.outputs.length := by
    rw [boundOutputs_of_type htype]
    cases type <;> first | rfl | exact absurd hown (by decide)
  rw [hconnect] at ha ⊢
  rw [connectDefault_entries (hbuilds self) ha, hdefault, hall, List.take_length,
    ← getD_zero_of_length_one hone]
  rfl

/-- **The entries of a class.**  Under a signature of NNAPI a class that asks
for no output beyond the last binds its first ones, each to a node. -/
theorem class_entries {type : OperationType} {cls : OperationClass}
    (hcls : OperationsFactory.getOperation type = some cls)
    (htype : (self.sModelInfo.getOperation self.mNnapiOperationIndex).type = type)
    (hdefault : self.mDefaultOutputIndex = self.outputIndex 0)
    (hsignature : (self.sModelInfo.getOperation self.mNnapiOperationIndex).outputSignature
      self.sModelInfo.mModel = true)
    (hrange : self.boundOutputs ≤ self.outputs.length)
    (hrun : Completes (exec (answer ng) (cls.connectOperationToGraph self) s)) :
    boundEntries (exec (answer ng) (cls.connectOperationToGraph self) s) =
      (self.outputs.take self.boundOutputs).map fun o => (o, true) := by
  rcases hrun.returned with ⟨a, ha⟩
  by_cases hown : type.bindsItself = false
  · exact default_entries hcls htype hdefault hsignature hown ha
  have hbound := boundOutputs_of_type htype
  unfold Operation.outputSignature at hsignature
  rw [htype] at hsignature
  rw [hbound] at hrange ⊢
  cases type <;> try exact absurd rfl hown
  all_goals
    obtain rfl := Option.some.inj hcls
    dsimp only at hrange hsignature ⊢
  case split =>
    exact Split.entries hsignature hrange ha
  case bidirectionalSequenceRnn => exact BidirectionalSequenceRNN.entries hrange hrun
  all_goals rw [List.take_length]
  case topkV2 =>
    obtain ⟨hlength, hconverts⟩ := of_decide_eq_true hsignature
    exact TopkV2.entries hlength hconverts ha
  case unidirectionalSequenceRnn =>
    exact UnidirectionalSequenceRNN.entries (of_decide_eq_true hsignature) hrun
  case quantize | cast =>
    have hone : self.outputs.length = 1 := of_decide_eq_true hsignature
    rw [← getD_zero_of_length_one hone]
    first
      | exact Quantize.createNode_uses.entries ha
      | exact Cast.createNode_uses.entries ha
  case rnn =>
    have htwo : self.outputs.length = 2 := of_decide_eq_true hsignature
    rw [map_outputs, htwo]
    exact RNN.createNode_uses.entries ha
  case lstm =>
    have hfour : self.outputs.length = 4 := of_decide_eq_true hsignature
    rw [map_outputs, hfour]
    exact (LSTM.createNode_uses.entries ha).trans LSTM.uses_entries

end ClassEntries

/-! ## A table filled from a list -/

section Tables

variable {K V : Type} [DecidableEq K]

/-- Set the entries one after the other. -/
def fill (table : K → V) (entries : List (K × V)) : K → V :=
  entries.foldl (fun t b => Function.update t b.1 b.2) table

theorem fill_append (table : K → V) (bs cs : List (K × V)) :
    fill table (bs ++ cs) = fill (fill table bs) cs := List.foldl_append

theorem fill_of_notMem {table : K → V} {bs : List (K × V)} {k : K} (hk : k ∉ bs.map (·.1)) :
    fill table bs k = table k := by
  induction bs generalizing table with
  | nil => rfl
  | cons b bs ih =>
      obtain ⟨hb, hbs⟩ := not_or.mp (mt List.mem_cons.mpr hk)
      exact (ih hbs).trans (Function.update_of_ne hb _ _)

/-- Where no key comes twice, each entry stays. -/
theorem fill_of_mem {table : K → V} {bs : List (K × V)} (hnodup : (bs.map (·.1)).Nodup)
    {b : K × V} (hb : b ∈ bs) : fill table bs b.1 = b.2 := by
  induction bs generalizing table with
  | nil => cases hb
  | cons c bs ih =>
      obtain ⟨hc, hbs⟩ := List.nodup_cons.mp hnodup
      rcases List.mem_cons.mp hb with rfl | hrest
      · exact (fill_of_notMem hc).trans (Function.update_self _ _ _)
      · exact ih hbs hrest

end Tables

/-! ## The whole graph -/

/-- The number of outputs bound for the operation at an index. -/
def NnapiModelInfo.boundOutputs (info : NnapiModelInfo) (index : Nat) : Nat :=
  OperationsBase.boundOutputs
    { sModelInfo := info, sPluginType := .cpu, mNnapiOperationIndex := index
      mDefaultOutputIndex := info.getOperationOutput index 0 }

/-- The outputs bound for it. -/
def NnapiModelInfo.firstOutputs (info : NnapiModelInfo) (index : Nat) : List Nat :=
  (info.getOperation index).outputs.take (info.boundOutputs index)

section Graph

variable {info : NnapiModelInfo} {device : IntelDeviceType} {ng : Ngraph} {s : NgraphNodes}

theorem class_registers {type : OperationType} {cls : OperationClass}
    (hcls : OperationsFactory.getOperation type = some cls) (self : OperationsBase) :
    Registers self.sModelInfo (cls.connectOperationToGraph self) := by
  by_cases hown : type.bindsItself = false
  · obtain ⟨createNode, hbuilds, hconnect⟩ := OperationsFactory.keepsDefault hcls hown
    rw [hconnect]
    exact registers_connectDefault (hbuilds self)
  · cases type <;> try exact absurd rfl hown
    all_goals obtain rfl := Option.some.inj hcls
    case quantize => exact Quantize.registers
    case cast => exact Cast.registers
    case rnn => exact RNN.registers
    case lstm => exact LSTM.registers
    case topkV2 => exact TopkV2.registers
    case split => exact Split.registers
    case unidirectionalSequenceRnn => exact UnidirectionalSequenceRNN.registers
    case bidirectionalSequenceRnn => exact BidirectionalSequenceRNN.registers

namespace NgraphNetworkCreator

/-- The operations at some indexes, as objects. -/
def nodesAt (info : NnapiModelInfo) (device : IntelDeviceType) (is : List Nat) :
    List (Option OperationNode) :=
  is.map (operationNode info (OperationsFactory.statics device info))

theorem registers_connectNodes (is : List Nat) :
    Registers info (connectNodes (OperationsFactory.statics device info)
      (nodesAt info device is)) := by
  induction is with
  | nil => exact registers_pure true
  | cons i is ih =>
      unfold nodesAt
      rw [List.map_cons]
      cases hcls : OperationsFactory.getOperation (info.getOperation i).type with
      | none =>
          simp only [operationNode, hcls, Option.map_none]
          exact registers_pure false
      | some cls =>
          simp only [operationNode, hcls, Option.map_some]
          exact (class_registers hcls (OperationNode.base ⟨cls, i, _⟩ _)).bind fun _ => ih

/-- The entries of the operations are their first outputs. -/
theorem connectNodes_entries {is : List Nat}
    (hsignature : ∀ i ∈ is, (info.getOperation i).outputSignature info.mModel = true)
    (hrange : ∀ i ∈ is, info.boundOutputs i ≤ (info.getOperation i).outputs.length)
    (hrun : Completes (exec (answer ng) (connectNodes (OperationsFactory.statics device info)
      (nodesAt info device is)) s))
    (htrue : (exec (answer ng) (connectNodes (OperationsFactory.statics device info)
      (nodesAt info device is)) s).outcome = .ok true) :
    boundEntries (exec (answer ng) (connectNodes (OperationsFactory.statics device info)
      (nodesAt info device is)) s) =
        (is.flatMap info.firstOutputs).map fun o => (o, true) := by
  induction is generalizing s with
  | nil => rfl
  | cons i is ih =>
      unfold nodesAt at hrun htrue ⊢
      rw [List.map_cons] at hrun htrue ⊢
      cases hcls : OperationsFactory.getOperation (info.getOperation i).type with
      | none =>
          simp only [operationNode, hcls, Option.map_none] at htrue
          cases htrue
      | some cls =>
          simp only [operationNode, hcls, Option.map_some] at hrun htrue ⊢
          rcases hrun.of_bind with ⟨_, _, hnode, hrest⟩
          obtain ⟨_, _, htrue', hentries⟩ := entries_bind htrue
          refine hentries.trans ?_
          rw [List.flatMap_cons, List.map_append]
          refine congrArg₂ (· ++ ·) ?_ ?_
          · exact @class_entries (OperationNode.base ⟨cls, i, info.getOperationOutput i 0⟩
              (OperationsFactory.statics device info)) ng s _ cls hcls rfl rfl
              (hsignature i List.mem_cons_self) (hrange i List.mem_cons_self) hnode
          · exact ih (fun j hj => hsignature j (List.mem_cons_of_mem _ hj))
              (fun j hj => hrange j (List.mem_cons_of_mem _ hj)) hrest htrue'

theorem registers_createInputParams {inputs : List Nat}
    (hinputs : ∀ i ∈ inputs, (info.getOperand i).lifetime = .subgraphInput) :
    Registers info (createInputParams info inputs) := by
  induction inputs with
  | nil => exact registers_pure true
  | cons i inputs ih =>
      have hrest := ih fun j hj => hinputs j (List.mem_cons_of_mem _ hj)
      have hi : (info.getOperand i).lifetime ≠ .subgraphOutput := by
        rw [hinputs i List.mem_cons_self]
        decide
      have hset : ∀ output, Registers info (issue (.setOutputAtOperandIndex i output)) := by
        intro output ng s a _
        simp [exec, Prog.perform, answer, Ran.selected, Cmd.registration, Cmd.binding,
          NnapiModelInfo.resultOf, hi]
      unfold createInputParams
      refine .ite ?_ ?_
      · have hmark : Building (issue (.setInvalidNode i)) := only_perform trivial
        exact hmark.registers.bind fun _ => hrest
      · cases parameterType (info.getOperand i).type with
        | none => exact registers_pure false
        | some type =>
            apply (reading_makeShared _ _).building.registers.bind
            intro inputParam
            have hadd : Building (issue (.addInputParam inputParam)) := only_perform trivial
            refine hadd.registers.bind fun _ => ?_
            exact (hset _).bind fun _ => hrest

/-- What the inputs bind are inputs. -/
theorem inputAccesses_entries (inputs : List Nat) :
    ∀ b ∈ (inputAccesses info inputs).filterMap Access.entry, b.1 ∈ inputs := by
  induction inputs with
  | nil => nofun
  | cons i inputs ih =>
      intro b hb
      unfold inputAccesses at hb
      split at hb
      · exact List.mem_cons_of_mem _ (ih b hb)
      · split at hb
        · rcases List.mem_cons.mp hb with rfl | hrest
          · exact List.mem_cons_self
          · exact List.mem_cons_of_mem _ (ih b hrest)
        · cases hb

/-- The run that generates the graph of a model. -/
def graphRun (info : NnapiModelInfo) (device : IntelDeviceType) (ng : Ngraph) :
    Ran NgraphNodes Cmd Stop Bool :=
  (construct info device).1.generateRun (construct info device).2 ng

/-- A graph generation that succeeds binds the model inputs first, then the
first outputs of every operation. -/
theorem graphRun_entries
    (hsignature : ∀ i < info.getOperationsSize,
      (info.getOperation i).outputSignature info.mModel = true)
    (hrange : ∀ i < info.getOperationsSize,
      info.boundOutputs i ≤ (info.getOperation i).outputs.length)
    (hrun : Completes (graphRun info device ng))
    (htrue : (graphRun info device ng).outcome = .ok true) :
    ∃ front : List (Nat × Bool), (∀ b ∈ front, b.1 ∈ info.getModelInputIndexes) ∧
      boundEntries (graphRun info device ng) = front ++
        ((List.range info.getOperationsSize).flatMap info.firstOutputs).map fun o => (o, true) := by
  unfold graphRun generateRun initializeModel at hrun htrue ⊢
  obtain ⟨created, hcreated, hsecond, hentries⟩ := entries_bind htrue
  rcases hrun.of_bind with ⟨_, hcreated', -, hrest⟩
  obtain rfl := Except.ok.inj (hcreated.symm.trans hcreated')
  refine ⟨_, ?_, hentries.trans (congrArg (_ ++ ·) ?_)⟩
  · rw [boundEntries_eq, Follows.trace_eq (follows_createInputParams _ _) hcreated]
    exact inputAccesses_entries _
  · cases created with
    | false => cases hsecond
    | true =>
        exact connectNodes_entries (fun i hi => hsignature i (List.mem_range.mp hi))
          (fun i hi => hrange i (List.mem_range.mp hi)) hrest hsecond

theorem registers_initializeModel (hmodel : info.mModel.WellFormed) :
    Registers info ((construct info device).1.initializeModel (construct info device).2) := by
  apply (registers_createInputParams hmodel.2.2.1).bind
  intro created
  exact .ite (registers_connectNodes _) (registers_pure false)

/-- Removing a parameter touches neither the entries nor the results. -/
theorem removeInputNode_tables (nodes : NgraphNodes) (index : Nat) :
    (nodes.removeInputNode ng index).mOutputAtOperandIndex = nodes.mOutputAtOperandIndex ∧
      (nodes.removeInputNode ng index).mResultNodes = nodes.mResultNodes := by
  have hname : (nodes.getNodeName ng index).2.mOutputAtOperandIndex =
      nodes.mOutputAtOperandIndex ∧
        (nodes.getNodeName ng index).2.mResultNodes = nodes.mResultNodes := by
    unfold NgraphNodes.getNodeName
    split <;> exact ⟨rfl, rfl⟩
  unfold NgraphNodes.removeInputNode NgraphNodes.removeInputParameter
  dsimp only
  split
  · exact hname
  · exact hname

/-- Only a binding changes the entries, and only a registration the results. -/
theorem answer_tables {c : Cmd} {nodes nodes' : NgraphNodes} {r : c.Answer}
    (h : answer ng c nodes = .ok (r, nodes')) :
    nodes'.mOutputAtOperandIndex = c.binding.elim nodes.mOutputAtOperandIndex
        (fun b => Function.update nodes.mOutputAtOperandIndex b.1 b.2) ∧
      nodes'.mResultNodes = c.registration.elim nodes.mResultNodes
        fun b => nodes.mResultNodes ++ [b.2] := by
  cases c with
  | abort | throwException => cases h
  | removeInputNode i =>
      obtain ⟨-, rfl⟩ := Prod.mk.inj (Except.ok.inj h)
      exact removeInputNode_tables nodes i
  | make op args =>
      simp only [answer] at h
      split at h
      · obtain ⟨-, rfl⟩ := Prod.mk.inj (Except.ok.inj h)
        exact ⟨rfl, rfl⟩
      · cases h
  | _ =>
      obtain ⟨-, rfl⟩ := Prod.mk.inj (Except.ok.inj h)
      exact ⟨rfl, rfl⟩

/-- The tables after a run that returned. -/
theorem graphRun_tables {created : Bool} (hmodel : info.mModel.WellFormed)
    (h : (graphRun info device ng).outcome = .ok created) :
    (graphRun info device ng).state.mOutputAtOperandIndex =
        fill (fun _ => none) ((graphRun info device ng).selected Cmd.binding) ∧
      (graphRun info device ng).state.mResultNodes =
        (((graphRun info device ng).selected Cmd.binding).filterMap info.resultOf).map (·.2) := by
  constructor
  · exact @exec_view _ _ _ _ _ (answer ng) _ _ Cmd.binding
      (fun nodes : NgraphNodes => nodes.mOutputAtOperandIndex)
      (fun t b => Function.update t b.1 b.2) (fun _ _ _ _ hanswer => (answer_tables hanswer).1)
      _ _ _ h
  · have hresults := @exec_view _ _ _ _ _ (answer ng) _ _ Cmd.registration
      (fun nodes : NgraphNodes => nodes.mResultNodes) (fun results b => results ++ [b.2])
      (fun _ _ _ _ hanswer => (answer_tables hanswer).2) _ _ _ h
    refine hresults.trans ?_
    rw [registers_initializeModel hmodel ng _ _ h]
    have happend : ∀ (bs : List (Nat × NodePtr)) (results : List NodePtr),
        bs.foldl (fun results b => results ++ [b.2]) results = results ++ bs.map (·.2) := by
      intro bs
      induction bs with
      | nil => simp
      | cons b bs ih => simp [ih]
    exact happend _ _

end NgraphNetworkCreator

/-- The operand is an output of the model. -/
def NnapiModelInfo.isOutput (info : NnapiModelInfo) (o : Nat) : Bool :=
  (info.getOperand o).lifetime = .subgraphOutput

/-- A list of bindings that starts with model inputs and goes on with operands
no two of which agree, each with a node: these operands hold a node, and the
results are their nodes. -/
theorem fill_bindings {bs : List (Nat × Option Output)} {front : List (Nat × Bool)}
    {written inputs : List Nat}
    (hbs : bs.map entryOf = front ++ written.map fun o => (o, true))
    (hfront : ∀ b ∈ front, b.1 ∈ inputs)
    (hinputs : ∀ i ∈ inputs, info.isOutput i = false)
    (hnodup : written.Nodup) :
    (∀ o, o ∉ inputs → ((fill (fun _ => none) bs o).isSome = true ↔ o ∈ written)) ∧
      (bs.filterMap info.resultOf).map (·.2) =
        (written.filter info.isOutput).map fun o => (fill (fun _ => none) bs o).map (·.1) := by
  obtain ⟨cs, ds, rfl, hcs, hds⟩ := List.map_eq_append_iff.mp hbs
  have hkeys : ds.map (·.1) = written := by
    have h := congrArg (List.map Prod.fst) hds
    simpa [Function.comp_def, entryOf] using h
  have hsome : ∀ d ∈ ds, d.2.isSome = true := by
    intro d hd
    have hentry : entryOf d ∈ written.map fun o => (o, true) := hds ▸ List.mem_map_of_mem hd
    obtain ⟨o, -, ho⟩ := List.mem_map.mp hentry
    exact (Prod.mk.inj ho).2.symm
  have hfirst : ∀ c ∈ cs, c.1 ∈ inputs := fun c hc => 
    hfront (entryOf c) (hcs ▸ List.mem_map_of_mem hc)
  have hkept : ∀ d ∈ ds, fill (fun _ => none) (cs ++ ds) d.1 = d.2 := by
    intro d hd
    rw [fill_append]
    exact fill_of_mem (hkeys ▸ hnodup) hd
  constructor
  · intro o ho
    constructor
    · intro hbound
      by_contra hwritten
      rw [fill_append, fill_of_notMem (hkeys ▸ hwritten), fill_of_notMem] at hbound
      · cases hbound
      · intro hmem
        obtain ⟨c, hc, rfl⟩ := List.mem_map.mp hmem
        exact ho (hfirst c hc)
    · intro hwritten
      rw [← hkeys] at hwritten
      obtain ⟨d, hd, rfl⟩ := List.mem_map.mp hwritten
      rw [hkept d hd]
      exact hsome d hd
  · have hnone : cs.filterMap info.resultOf = [] := by
      apply List.filterMap_eq_nil_iff.mpr
      intro c hc
      have hc := hinputs c.1 (hfirst c hc)
      unfold NnapiModelInfo.resultOf
      rw [if_neg (by simpa [NnapiModelInfo.isOutput] using hc)]
    rw [List.filterMap_append, hnone, List.nil_append, ← hkeys, List.filter_map, List.map_map]
    generalize fill (fun _ => none) (cs ++ ds) = table at hkept
    clear hbs hds hkeys hsome
    induction ds with
    | nil => rfl
    | cons d ds ih =>
        have hd := hkept d List.mem_cons_self
        have hrest := ih fun e he => hkept e (List.mem_cons_of_mem _ he)
        by_cases h : (info.getOperand d.1).lifetime = .subgraphOutput
        · simp_all [NnapiModelInfo.resultOf, NnapiModelInfo.isOutput]
        · simp_all [NnapiModelInfo.resultOf, NnapiModelInfo.isOutput]

/-! ## Every output and every result -/

/-- Every temporary and every model output is written by an operation. -/
def Model.WritesOutputs (model : Model) : Prop :=
  ∀ o < model.operands.length,
    (model.operand o).lifetime ∈ [OperandLifeTime.temporaryVariable, .subgraphOutput] →
      o ∈ model.operations.flatMap (·.outputs)

instance (model : Model) : Decidable model.WritesOutputs :=
  inferInstanceAs (Decidable (∀ o < _, _))

/-- Every operation has outputs as a signature of NNAPI gives them. -/
def Model.OutputSignatures (model : Model) : Prop :=
  ∀ operation ∈ model.operations, operation.outputSignature model = true

instance (model : Model) : Decidable model.OutputSignatures :=
  inferInstanceAs (Decidable (∀ operation ∈ _, _))

/-- No output beyond the last is asked for, every output of every operation is
bound to a node, and the results are the nodes bound to the model outputs, one
for each. -/
structure RegistersResults (info : NnapiModelInfo) (nodes : NgraphNodes) : Prop where
  inRange : ∀ i < info.getOperationsSize,
    info.boundOutputs i ≤ (info.getOperation i).outputs.length
  bound : ∀ operation ∈ info.mModel.operations, ∀ o ∈ operation.outputs, nodes.bound o = true
  results : ∃ outputs : List Nat, outputs.Nodup ∧
    (∀ o, o ∈ outputs ↔ o < info.mModel.operands.length ∧ info.isOutput o = true) ∧
      nodes.mResultNodes = outputs.map fun o => (nodes.mOutputAtOperandIndex o).map (·.1)

theorem flatMap_getOperation :
    (List.range info.getOperationsSize).flatMap (fun i => (info.getOperation i).outputs) =
      info.mModel.operations.flatMap (·.outputs) := by
  have hmap : (List.range info.getOperationsSize).map info.getOperation =
      info.mModel.operations := by
    apply List.ext_getElem
    · simp [NnapiModelInfo.getOperationsSize]
    · intro i hi hlt
      simp [NnapiModelInfo.getOperation, hlt]
  rw [← hmap, List.flatMap_map]

theorem firstOutputs_subset (is : List Nat) :
    (is.flatMap info.firstOutputs).Sublist (is.flatMap fun i => (info.getOperation i).outputs) := by
  induction is with
  | nil => exact .slnil
  | cons i is ih => exact (List.take_sublist _ _).append ih

/-- Bounded lists of which no entry is lost are whole. -/
theorem firstOutputs_all {is : List Nat}
    (hrange : ∀ i ∈ is, info.boundOutputs i ≤ (info.getOperation i).outputs.length)
    (hlength : (is.flatMap fun i => (info.getOperation i).outputs).length ≤
      (is.flatMap info.firstOutputs).length) :
    ∀ i ∈ is, info.boundOutputs i = (info.getOperation i).outputs.length := by
  induction is with
  | nil => nofun
  | cons i is ih =>
      have hi := hrange i List.mem_cons_self
      have hrest := (@firstOutputs_subset info is).length_le
      simp only [List.flatMap_cons, List.length_append] at hlength
      have hfirst : (info.firstOutputs i).length = info.boundOutputs i :=
        List.length_take_of_le hi
      intro j hj
      rcases List.mem_cons.mp hj with rfl | hj
      · omega
      · exact ih (fun k hk => hrange k (List.mem_cons_of_mem _ hk)) (by omega) j hj

theorem getOperation_mem {i : Nat} (hi : i < info.getOperationsSize) :
    info.getOperation i ∈ info.mModel.operations := by
  have hi' : i < info.mModel.operations.length := hi
  unfold NnapiModelInfo.getOperation
  rw [← List.getElem_eq_getD (h := hi')]
  exact List.getElem_mem hi'

/-- An output of an operation is an operand of the model and no model input. -/
theorem output_not_input (hmodel : info.mModel.WellFormed) {o : Nat}
    (ho : o ∈ info.mModel.operations.flatMap (·.outputs)) :
    o < info.mModel.operands.length ∧ o ∉ info.getModelInputIndexes := by
  obtain ⟨operation, hoperation, ho⟩ := List.mem_flatMap.mp ho
  obtain ⟨hlt, hlifetime⟩ := (hmodel.1 operation hoperation).2 o ho
  refine ⟨hlt, fun hinput => ?_⟩
  rw [hmodel.2.2.1 o hinput] at hlifetime
  simp at hlifetime

/-- What the tables hold when every position asked for is there. -/
theorem graphRun_filled (hmodel : info.mModel.WellFormed)
    (hsignature : info.mModel.OutputSignatures)
    (hrange : ∀ i < info.getOperationsSize,
      info.boundOutputs i ≤ (info.getOperation i).outputs.length)
    (hrun : Completes (NgraphNetworkCreator.graphRun info device ng))
    (htrue : (NgraphNetworkCreator.graphRun info device ng).outcome = .ok true) :
    (∀ o ∈ info.mModel.operations.flatMap (·.outputs),
        ((NgraphNetworkCreator.graphRun info device ng).state.bound o = true ↔
          o ∈ (List.range info.getOperationsSize).flatMap info.firstOutputs)) ∧
      (NgraphNetworkCreator.graphRun info device ng).state.mResultNodes =
        (((List.range info.getOperationsSize).flatMap info.firstOutputs).filter info.isOutput).map
          fun o => ((NgraphNetworkCreator.graphRun info device ng).state.mOutputAtOperandIndex
            o).map (·.1) := by
  obtain ⟨front, hfront, hbound⟩ := NgraphNetworkCreator.graphRun_entries
    (fun i hi => hsignature _ (getOperation_mem hi)) hrange hrun htrue
  obtain ⟨hentries, hresults⟩ := NgraphNetworkCreator.graphRun_tables hmodel htrue
  have hinputs : ∀ i ∈ info.getModelInputIndexes, info.isOutput i = false := by
    intro i hi
    have hlifetime : (info.getOperand i).lifetime = .subgraphInput := hmodel.2.2.1 i hi
    simp [NnapiModelInfo.isOutput, hlifetime]
  have hsub := @firstOutputs_subset info (List.range info.getOperationsSize)
  rw [flatMap_getOperation] at hsub
  obtain ⟨hfilled, hnodes⟩ :=
    fill_bindings hbound hfront hinputs (hsub.nodup hmodel.2.2.2.2)
  rw [← hentries] at hfilled hnodes
  exact ⟨fun o ho => hfilled o (output_not_input hmodel ho).2, hresults.trans hnodes⟩

/-- **Results.**  A graph generation that succeeds binds every output and
registers every model output once exactly when each operation has as many
outputs as its class binds: `SPLIT` as many as the value of its third input,
`BIDIRECTIONAL_SEQUENCE_RNN` one or three where it merges and two or four where
it does not. -/
theorem registersResults_iff (info : NnapiModelInfo) (device : IntelDeviceType) (ng : Ngraph)
    (hmodel : info.mModel.WellFormed) (hwrites : info.mModel.WritesOutputs)
    (hsignature : info.mModel.OutputSignatures)
    (hrun : Completes (NgraphNetworkCreator.graphRun info device ng))
    (htrue : (NgraphNetworkCreator.graphRun info device ng).outcome = .ok true) :
    RegistersResults info (NgraphNetworkCreator.graphRun info device ng).state ↔
      ∀ i < info.getOperationsSize,
        info.boundOutputs i = (info.getOperation i).outputs.length := by
  have hnodup := hmodel.2.2.2.2
  constructor
  · intro hboth
    rcases hboth with ⟨hrange, hbound, -⟩
    obtain ⟨hfilled, -⟩ := graphRun_filled hmodel hsignature hrange hrun htrue
    have hsubset : info.mModel.operations.flatMap (·.outputs) ⊆
        (List.range info.getOperationsSize).flatMap info.firstOutputs := by
      intro o ho
      obtain ⟨operation, hoperation, ho'⟩ := List.mem_flatMap.mp ho
      exact (hfilled o ho).mp (hbound operation hoperation o ho')
    have hlength := (List.subperm_of_subset hnodup hsubset).length_le
    rw [← flatMap_getOperation] at hlength
    intro i hi
    exact firstOutputs_all (fun j hj => hrange j (List.mem_range.mp hj)) hlength i
      (List.mem_range.mpr hi)
  · intro hall
    have hrange : ∀ i < info.getOperationsSize,
        info.boundOutputs i ≤ (info.getOperation i).outputs.length :=
      fun i hi => Nat.le_of_eq (hall i hi)
    obtain ⟨hfilled, hresults⟩ := graphRun_filled hmodel hsignature hrange hrun htrue
    have hwritten : (List.range info.getOperationsSize).flatMap info.firstOutputs =
        info.mModel.operations.flatMap (·.outputs) := by
      rw [← flatMap_getOperation]
      apply List.flatMap_congr
      intro i hi
      exact List.take_of_length_le (Nat.le_of_eq (hall i (List.mem_range.mp hi)).symm)
    rw [hwritten] at hfilled hresults
    refine ⟨hrange, fun operation hoperation o ho => ?_, _, hnodup.filter _, fun o => ?_, hresults⟩
    · have ho' := List.mem_flatMap.mpr ⟨operation, hoperation, ho⟩
      exact (hfilled o ho').mpr ho'
    · rw [List.mem_filter]
      constructor
      · intro hboth
        rcases hboth with ⟨ho, houtput⟩
        exact ⟨(output_not_input hmodel ho).1, houtput⟩
      · intro hboth
        rcases hboth with ⟨hlt, houtput⟩
        refine ⟨hwrites o hlt ?_, houtput⟩
        have hlifetime : (info.mModel.operand o).lifetime = .subgraphOutput :=
          of_decide_eq_true houtput
        simp [hlifetime]

end Graph

/-- A model that splits its input in two outputs, with the number of splits as
a constant. -/
def splitModel (numSplits : UInt8) : Model where
  operands :=
    [{ type := .tensorFloat32, dimensions := [2, 2], lifetime := .subgraphInput },
     { type := .int32, lifetime := .constantCopy, location := { length := 4 } },
     { type := .int32, lifetime := .constantCopy, location := { offset := 4, length := 4 } },
     { type := .tensorFloat32, dimensions := [1, 2], lifetime := .subgraphOutput },
     { type := .tensorFloat32, dimensions := [1, 2], lifetime := .subgraphOutput }]
  operations := [{ type := .split, inputs := [0, 1, 2], outputs := [3, 4] }]
  inputIndexes := [0]
  outputIndexes := [3, 4]
  operandValues := [0, 0, 0, 0, numSplits, 0, 0, 0]

/-- Two splits bind both outputs. -/
theorem splitModel_registersResults :
    RegistersResults ⟨splitModel 2, []⟩
      (NgraphNetworkCreator.graphRun ⟨splitModel 2, []⟩ .cpu .permissive).state :=
  (registersResults_iff ⟨splitModel 2, []⟩ .cpu .permissive (by decide) (by decide) (by decide)
    ⟨⟨true, rfl⟩, rfl⟩ rfl).mpr (by decide)

/-- With one split the second output stays without a node, and the graph is
generated all the same. -/
theorem splitModel_loses_output :
    ¬ ∀ (info : NnapiModelInfo) (device : IntelDeviceType) (ng : Ngraph),
      info.mModel.WellFormed → info.mModel.InExecutionOrder → info.mModel.WritesOutputs →
      info.mModel.OutputSignatures →
      Completes (NgraphNetworkCreator.graphRun info device ng) →
      (NgraphNetworkCreator.graphRun info device ng).outcome = .ok true →
      RegistersResults info (NgraphNetworkCreator.graphRun info device ng).state := by
  intro h
  have hresults := h ⟨splitModel 1, []⟩ .cpu .permissive (by decide) (by decide) (by decide)
    (by decide) ⟨⟨true, rfl⟩, rfl⟩ rfl
  have hbound : false = true := hresults.bound
    { type := .split, inputs := [0, 1, 2], outputs := [3, 4] } List.mem_cons_self 4 (by decide)
  cases hbound

end NnHal
