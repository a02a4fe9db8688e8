import NnHal.BoundNodes
import NnHal.GraphMeaning
import NnHal.SupportedOperations

/-!
# When a graph is generated

An operation stops graph construction where a value it reads is not stored as its
class expects: `GetOperandMemory` asserts where the value is stored, the scalar and
vector reads assert its length, and per-channel parameters are asserted to be there.
A value that is not stored at all is read through a null pointer, and an operand that
no operation has bound is a null node.  Besides, ngraph may refuse a node.  What the
operations use of their operands is a list for each class, so whether a graph is
generated can be read off the model.
-/

namespace NnHal

open Command Runs

/-! ## Uses that go well -/

namespace NnapiModelInfo

variable (info : NnapiModelInfo)

/-- `GetOperandMemory` returns a pointer to the operand's value. -/
def Locates (operand : Nat) : Prop :=
  match (info.getOperand operand).lifetime with
  | .constantCopy => (info.getOperand operand).location.poolIndex = 0
  | .constantReference => True
  | _ => False

/-- `GetOperandMemory` returns the null pointer. -/
def LacksValue (operand : Nat) : Prop :=
  match (info.getOperand operand).lifetime with
  | .constantCopy | .constantReference | .subgraph => False
  | _ => True

/-- A vector of the type is read from the operand; nothing is read of an empty one. -/
def ReadsVector (T : CType) (operand : Nat) : Prop :=
  T.size ∣ info.operandLength operand ∧
    (info.Locates operand ∨ info.operandLength operand / T.size = 0 ∧ info.LacksValue operand)

end NnapiModelInfo

namespace OperationsBase

variable (self : OperationsBase)

/-- `DequantizeNode` finds the parameters of a per-channel operand, for a channel within
the rank of input 0. -/
def Dequantizes (operand : Nat) : Prop :=
  self.sModelInfo.getOperandType operand = .tensorQuant8SymmPerChannel →
    ∃ params, (self.sModelInfo.getOperand operand).channelQuant = some params ∧
      params.channelDim ≤ (self.getInputOperandDimensions 0).length

/-- What the use reads of the model is stored as it expects.  Whether the nodes it looks
up are there depends on what has been bound before. -/
def Serves : Use → Prop
  | .node input dequantize =>
      let operand := self.inputIndex input
      (self.sModelInfo.isOperandLifeTimeConst operand = true →
        ∀ type T, (self.sModelInfo.getOperandType operand).constElement = some (type, T) →
          self.sModelInfo.ReadsVector T operand) ∧
      (dequantize = true → (self.sModelInfo.getOperandType operand).isQuantized = true →
        self.Dequantizes operand)
  | .rawOutput _ | .remove _ | .set _ _ => True
  | .scalar T input =>
      self.sModelInfo.operandLength (self.inputIndex input) = T.size ∧
        self.sModelInfo.Locates (self.inputIndex input)
  | .vector T input => self.sModelInfo.ReadsVector T (self.inputIndex input)
  | .dequantize operand => self.Dequantizes operand
  | .channelQuant input => (self.getInputOperand input).channelQuant.isSome = true

end OperationsBase

/-- The touch stops the program, or reads through the null pointer. -/
def Access.fails : Access → Bool
  | .stop | .nullRead _ => true
  | _ => false

theorem Access.fails_of_stops {u : Access} (h : u.stops = true) : u.fails = true := by
  cases u <;> first | rfl | cases h

section Uses

variable {info : NnapiModelInfo} {self : OperationsBase} {operand : Nat}

/-- A read of a value: it has the length, and is found unless it is empty. -/
theorem readAccesses_goOn {fits : Prop} [Decidable fits] {empty : Bool} :
    (info.memoryAccesses operand ++
        if fits then info.bufferAccesses operand empty else [.stop]).any Access.fails = false ↔
      fits ∧ (info.Locates operand ∨ empty = true ∧ info.LacksValue operand) := by
  by_cases hfits : fits
  swap
  · rw [if_neg hfits, List.any_append]
    refine iff_of_false (fun h => ?_) fun h => hfits h.1
    exact absurd ((Bool.or_eq_false_iff.mp h).2) (by decide)
  rw [if_pos hfits, and_iff_right hfits]
  unfold NnapiModelInfo.memoryAccesses NnapiModelInfo.bufferAccesses NnapiModelInfo.operandBuffer
    NnapiModelInfo.Locates NnapiModelInfo.LacksValue
  cases hlifetime : (info.getOperand operand).lifetime with
  | constantCopy =>
      by_cases hpool : (info.getOperand operand).location.poolIndex = 0
      · simp [hlifetime, hpool, Access.fails]
      · simp [hlifetime, hpool, Access.fails]
  | _ => cases empty <;> simp [hlifetime, Access.fails]

theorem vectorAccesses_goOn {T : CType} :
    (info.vectorAccesses T operand).any Access.fails = false ↔ info.ReadsVector T operand := by
  unfold NnapiModelInfo.vectorAccesses NnapiModelInfo.ReadsVector
  rw [readAccesses_goOn, decide_eq_true_iff]
  exact and_congr_left' ⟨fun h => ⟨_, h.symm.trans (Nat.mul_comm _ _)⟩, Nat.div_mul_cancel⟩

theorem dequantizeAccesses_goOn :
    (self.dequantizeAccesses operand).any Access.fails = false ↔ self.Dequantizes operand := by
  unfold OperationsBase.dequantizeAccesses OperationsBase.Dequantizes
  by_cases htype : self.sModelInfo.getOperandType operand = .tensorQuant8SymmPerChannel
  · rw [if_pos htype]
    cases hparams : (self.sModelInfo.getOperand operand).channelQuant with
    | none => simp [htype, Access.fails]
    | some params =>
        by_cases hrank : (self.getInputOperandDimensions 0).length < params.channelDim
        · simp [htype, hrank, Access.fails]
        · simp [htype, hrank, Nat.le_of_not_lt hrank]
  · simp [htype]

/-- The dequantization of a node that is fetched. -/
theorem dequantizedAccesses_goOn {b : Bool} :
    (if b then self.dequantizeAccesses operand else []).any Access.fails = false ↔
      (b = true → self.Dequantizes operand) := by
  cases b with
  | false => simp
  | true => simpa using dequantizeAccesses_goOn

theorem isQuantized_of_constElement {type : OperandType} (h : type.constElement = none) :
    type.isQuantized = false := by
  cases type <;> first | rfl | cases h

theorem nodeAccesses_goOn {input : Nat} {dequantize : Bool} :
    (self.nodeAccesses input dequantize).any Access.fails = false ↔
      self.Serves (.node input dequantize) := by
  have hdequantized : (if (dequantize && (self.sModelInfo.getOperandType
      (self.inputIndex input)).isQuantized) = true then
        self.dequantizeAccesses (self.inputIndex input) else []).any Access.fails = false ↔
      (dequantize = true → (self.sModelInfo.getOperandType (self.inputIndex input)).isQuantized =
        true → self.Dequantizes (self.inputIndex input)) := by
    rw [dequantizedAccesses_goOn, Bool.and_eq_true, and_imp]
  unfold OperationsBase.nodeAccesses OperationsBase.Serves
  dsimp only
  cases hconst : self.sModelInfo.isOperandLifeTimeConst (self.inputIndex input) with
  | true =>
      rw [if_pos rfl]
      cases helement : (self.sModelInfo.getOperandType (self.inputIndex input)).constElement with
      | none =>
          refine iff_of_true rfl ⟨nofun, fun _ hquantized => ?_⟩
          rw [isQuantized_of_constElement helement] at hquantized
          cases hquantized
      | some element =>
          obtain ⟨type, T⟩ := element
          dsimp only
          rw [List.any_append, Bool.or_eq_false_iff, vectorAccesses_goOn, hdequantized]
          refine and_congr_left' ⟨fun h _ type' T' heq => ?_, fun h => h rfl type T rfl⟩
          obtain ⟨-, rfl⟩ := Prod.mk.inj (Option.some.inj heq)
          exact h
  | false =>
      rw [if_neg Bool.false_ne_true, List.any_cons]
      exact hdequantized.trans ⟨fun h => ⟨nofun, h⟩, And.right⟩

/-- **One use.**  It goes on exactly when what it reads is stored as it expects. -/
theorem accesses_goOn (u : Use) :
    (self.accesses u).any Access.fails = false ↔ self.Serves u := by
  cases u with
  | node input dequantize => exact nodeAccesses_goOn
  | scalar T input =>
      refine readAccesses_goOn.trans (and_congr_right' (or_iff_left ?_))
      exact fun h => Bool.false_ne_true h.1
  | vector T input => exact vectorAccesses_goOn
  | dequantize operand => exact dequantizeAccesses_goOn
  | channelQuant input =>
      show (OperationsBase.channelQuantAccesses (self.getInputOperand input)).any Access.fails =
        false ↔ (self.getInputOperand input).channelQuant.isSome = true
      unfold OperationsBase.channelQuantAccesses
      cases (self.getInputOperand input).channelQuant with
      | none => exact iff_of_false (by decide) (by decide)
      | some params => exact iff_of_true rfl rfl
  | rawOutput input | remove input | set operand bound => exact iff_of_true rfl trivial

end Uses

/-! ## The whole graph -/

namespace NgraphNetworkCreator

/-- What a model has to be for its graph to be generated: its inputs have types with a
parameter, its operations have classes, what these read is stored as they expect, and
what they look up is bound before. -/
structure Generates (info : NnapiModelInfo) (device : IntelDeviceType) : Prop where
  inputs : ∀ i ∈ info.getModelInputIndexes, zeroSized (info.getOperand i) = true ∨
    (parameterType (info.getOperand i).type).isSome = true
  classes : ∀ operation ∈ info.mModel.operations,
    (OperationsFactory.getOperation operation.type).isSome = true
  serves : ∀ i < info.mModel.operations.length, ∀ cls,
    OperationsFactory.getOperation (info.getOperation i).type = some cls →
      ∀ u ∈ cls.uses (operationBase info device i), (operationBase info device i).Serves u
  bound : Checked BoundTable.allowsUse BoundTable.advanceUse (BoundTable.inputs info)
    ((construct info device).1.modelUses (construct info device).2)

variable {info : NnapiModelInfo} {device : IntelDeviceType}

/-- Its inputs are among those the creator makes Parameters of. -/
theorem Generates.inputsSupported (h : Generates info device) :
    inputsSupported info info.getModelInputIndexes = true :=
  List.all_eq_true.mpr fun i hi => (Bool.or_eq_true _ _).mpr (h.inputs i hi)

theorem yields_connectNodes (statics : Statics) (nodes : List (Option OperationNode)) :
    Yields (fun created => created = nodes.all Option.isSome) (connectNodes statics nodes) := by
  induction nodes with
  | nil => rfl
  | cons node nodes ih =>
      cases node with
      | none => rfl
      | some node => exact (yields_true _).bind fun _ _ => ih

theorem yields_initializeModel (creator : NgraphNetworkCreator) (statics : Statics) :
    Yields (fun created => created =
        (inputsSupported creator.mModelInfo creator.mModelInfo.getModelInputIndexes &&
          creator.mOperationNodes.all Option.isSome))
      (creator.initializeModel statics) := by
  refine (yields_createInputParams _ _).bind fun created heq => ?_
  subst heq
  split
  · next hsupported =>
    rw [hsupported]
    exact yields_connectNodes _ _
  · next hsupported =>
    rw [Bool.not_eq_true] at hsupported
    rw [hsupported]
    rfl

/-- The uses of the operations at these indexes. -/
theorem nodesUses_nodesAt {is : List Nat}
    (hclasses : ∀ i ∈ is,
      (OperationsFactory.getOperation (info.getOperation i).type).isSome = true) :
    (nodesUses (OperationsFactory.statics device info) (nodesAt info device is)).flatMap
        useAccesses =
      is.flatMap fun i => ((OperationsFactory.getOperation (info.getOperation i).type).elim []
        fun cls => cls.uses (operationBase info device i)).flatMap
          (operationBase info device i).accesses := by
  induction is with
  | nil => rfl
  | cons i is ih =>
      obtain ⟨cls, hcls⟩ := Option.isSome_iff_exists.mp (hclasses i List.mem_cons_self)
      have hnode : operationNode info (OperationsFactory.statics device info) i =
          some ⟨cls, i, info.getOperationOutput i 0⟩ := by
        unfold operationNode
        rw [hcls]
        rfl
      unfold nodesAt at ih ⊢
      rw [List.map_cons, hnode, nodesUses, List.flatMap_append,
        ih fun j hj => hclasses j (List.mem_cons_of_mem _ hj), List.flatMap_cons, hcls,
        List.flatMap_map]
      rfl

theorem all_nodesAt {is : List Nat} : (nodesAt info device is).all Option.isSome = true ↔
    ∀ i ∈ is, (OperationsFactory.getOperation (info.getOperation i).type).isSome = true := by
  unfold nodesAt operationNode
  rw [List.all_map, List.all_eq_true]
  refine forall₂_congr fun i _ => ?_
  rw [Function.comp_apply, Option.isSome_map]

theorem modelInputAccesses_fails (creator : NgraphNetworkCreator) :
    creator.modelInputAccesses.any Access.fails = false := by
  unfold modelInputAccesses
  induction creator.mModelInfo.getModelInputIndexes with
  | nil => rfl
  | cons i inputs ih =>
      unfold inputAccesses
      split
      · exact ih
      · split
        · exact ih
        · rfl

/-- The uses of the operations read what they expect exactly when none of the touches
fails. -/
theorem any_modelAccesses (hclasses : ∀ operation ∈ info.mModel.operations,
    (OperationsFactory.getOperation operation.type).isSome = true)
    (hinputs : inputsSupported info info.getModelInputIndexes = true) :
    ((construct info device).1.modelAccesses (construct info device).2).any Access.fails = false ↔
      ∀ i < info.mModel.operations.length, ∀ cls,
        OperationsFactory.getOperation (info.getOperation i).type = some cls →
          ∀ u ∈ cls.uses (operationBase info device i), (operationBase info device i).Serves u := by
  have hclass : ∀ i ∈ List.range info.getOperationsSize,
      (OperationsFactory.getOperation (info.getOperation i).type).isSome = true :=
    fun i hi => hclasses _ (getOperation_mem (List.mem_range.mp hi))
  have huses : (construct info device).1.modelUses (construct info device).2 =
      nodesUses (OperationsFactory.statics device info)
        (nodesAt info device (List.range info.getOperationsSize)) := if_pos hinputs
  unfold modelAccesses
  rw [List.any_append, modelInputAccesses_fails, Bool.false_or, huses, nodesUses_nodesAt hclass,
    List.any_flatMap, List.any_eq_false]
  refine forall_congr' fun i => imp_congr List.mem_range ?_
  rw [Bool.not_eq_true]
  cases hcls : OperationsFactory.getOperation (info.getOperation i).type with
  | none => exact iff_of_true rfl nofun
  | some cls =>
      rw [Option.elim_some, List.any_flatMap, List.any_eq_false]
      refine Iff.trans (forall₂_congr fun u _ => ?_)
        ⟨fun h cls' heq => Option.some.inj heq ▸ h, fun h => h cls rfl⟩
      rw [Bool.not_eq_true, accesses_goOn]

/-- Where no touch stops the program, the walk over the touches is the walk over the
uses. -/
theorem checked_modelAccesses (hinputs : inputsSupported info info.getModelInputIndexes = true)
    (hstops : ((construct info device).1.modelAccesses (construct info device).2).any
      Access.stops = false) :
    Checked BoundTable.allows BoundTable.advance (BoundTable.ofNodes {})
        ((construct info device).1.modelAccesses (construct info device).2) ↔
      Checked BoundTable.allowsUse BoundTable.advanceUse (BoundTable.inputs info)
        ((construct info device).1.modelUses (construct info device).2) := by
  have htable : (construct info device).1.modelInputAccesses.foldl BoundTable.advance
      (BoundTable.ofNodes {}) = BoundTable.inputs info :=
    (foldl_inputAccesses info _ _ hinputs).trans (by simp [BoundTable.inputs, BoundTable.ofNodes,
      NgraphNodes.bound, NgraphNodes.named])
  unfold modelAccesses at hstops ⊢
  rw [List.any_append, Bool.or_eq_false_iff] at hstops
  have huses : ((construct info device).1.modelUses (construct info device).2).any
      (fun p => (useAccesses p).any Access.stops) = false := List.any_flatMap ▸ hstops.2
  have hblocks := checked_upto_flatMap ((construct info device).1.modelUses
    (construct info device).2) (fun t p _ => use_checked t p) (fun t p _ _ => use_foldl t p)
    (BoundTable.inputs info)
  rw [upto_of_not_any hstops.2, upto_of_not_any huses] at hblocks
  rw [checked_append, htable]
  exact (and_iff_right (checked_inputAccesses _ _ _)).trans hblocks

end NgraphNetworkCreator

/-! ## Sound runs -/

/-- An ngraph that takes every node and every function. -/
structure Ngraph.Accepting (ng : Ngraph) : Prop where
  accepts : ∀ op args, ng.accepts op args = true
  acceptsFunction : ∀ results parameters, ng.acceptsFunction results parameters = true

def Cmd.faulted : Cmd → Option Fault
  | .fault f => some f
  | _ => none

/-- Every step of the run is defined: there is no fault, and every node that is taken
from the table is there. -/
structure Sound (run : Ran NgraphNodes Cmd Stop Bool) : Prop where
  noFault : run.selected Cmd.faulted = []
  nodes : NodesBound run

/-- The faults of the run, if there are any, are reads through the null buffer: no
vector is used past its end, no null node followed, nothing divided by zero, and no
variable read before it is assigned. -/
def Untroubled (run : Ran NgraphNodes Cmd Stop Bool) : Prop :=
  ∀ f ∈ run.selected Cmd.faulted, ∃ operand, f = .nullBuffer operand

theorem answer_accepting {ng : Ngraph} (hng : ng.Accepting) (c : Cmd)
    (hc : ∀ u, c.access = some u → u.stops = false) (nodes : NgraphNodes) :
    ∃ rs, answer ng c nodes = .ok rs := by
  cases c with
  | abort | throwException => cases hc .stop rfl
  | make op args => exact ⟨_, if_pos (hng.accepts op args)⟩
  | _ => exact ⟨_, rfl⟩

section Generation

open NgraphNetworkCreator

variable {info : NnapiModelInfo} {device : IntelDeviceType} {ng : Ngraph}

/-- A run that returns issues all touches of the model, and none of them stops it. -/
theorem touches_of_run (hrun : (graphRun info device ng).outcome = .ok true) :
    (graphRun info device ng).selected Cmd.access =
        (construct info device).1.modelAccesses (construct info device).2 ∧
      ((construct info device).1.modelAccesses (construct info device).2).any
        Access.stops = false :=
  ⟨(follows_initializeModel _ _).trace_eq hrun,
    (follows_initializeModel _ _).goesOn (answer_refuses ng) hrun⟩

/-- It finds the nodes it looks up exactly when the walk over the touches does. -/
theorem nodesBound_of_run (hrun : (graphRun info device ng).outcome = .ok true) :
    NodesBound (graphRun info device ng) ↔
      Checked BoundTable.allows BoundTable.advance (BoundTable.ofNodes {})
        ((construct info device).1.modelAccesses (construct info device).2) := by
  have hchecked := @exec_checked _ _ _ _ _ (answer ng) _ _ Cmd.access BoundTable.ofNodes
    BoundTable.allows BoundTable.advance (ofNodes_advance ng)
    ((construct info device).1.initializeModel (construct info device).2) {}
  rw [nodesBound_iff, ← (touches_of_run hrun).1]
  exact hchecked

/-- A touch is a read through the null buffer where the command is that fault. -/
theorem access_eq_nullRead_iff {c : Cmd} {operand : Nat} :
    c.access = some (.nullRead operand) ↔ c.faulted = some (.nullBuffer operand) := by
  cases c with
  | fault f => cases f <;> simp [Cmd.access, Cmd.faulted]
  | _ => simp [Cmd.access, Cmd.faulted]

/-- It reads nothing through the null buffer exactly when no touch fails. -/
theorem fails_of_run (hrun : (graphRun info device ng).outcome = .ok true) :
    (∀ operand, .nullBuffer operand ∉ (graphRun info device ng).selected Cmd.faulted) ↔
      ((construct info device).1.modelAccesses (construct info device).2).any
        Access.fails = false := by
  obtain ⟨hselected, hstops⟩ := touches_of_run hrun
  rw [← hselected] at hstops ⊢
  rw [List.any_eq_false] at hstops ⊢
  constructor
  · intro h u hu hfails
    cases u with
    | stop => exact hstops _ hu rfl
    | nullRead operand =>
        obtain ⟨sc, hsc, haccess⟩ := List.mem_filterMap.mp hu
        exact h operand (List.mem_filterMap.mpr ⟨sc, hsc, access_eq_nullRead_iff.mp haccess⟩)
    | _ => cases hfails
  · intro h operand hmem
    obtain ⟨sc, hsc, hfault⟩ := List.mem_filterMap.mp hmem
    refine h (.nullRead operand) (List.mem_filterMap.mpr ⟨sc, hsc, ?_⟩) rfl
    exact access_eq_nullRead_iff.mpr hfault

/-- A graph that comes out of a sound run is one of a model that has all it needs. -/
theorem generates_of_run (hrun : (graphRun info device ng).outcome = .ok true)
    (hsound : Sound (graphRun info device ng)) : Generates info device := by
  have hcreated := (yields_initializeModel (construct info device).1
    (construct info device).2).outcome hrun
  obtain ⟨hsupported, hnodes⟩ := (Bool.and_eq_true _ _).mp hcreated.symm
  have hinputs : inputsSupported info info.getModelInputIndexes = true := hsupported
  have hclasses : ∀ operation ∈ info.mModel.operations,
      (OperationsFactory.getOperation operation.type).isSome = true := by
    intro operation hoperation
    rw [← map_getOperation] at hoperation
    obtain ⟨i, hi, rfl⟩ := List.mem_map.mp hoperation
    exact all_nodesAt.mp hnodes i hi
  have hfails := (fails_of_run hrun).mp fun operand => hsound.noFault ▸ List.not_mem_nil
  refine ⟨fun i hi => ?_, hclasses, (any_modelAccesses hclasses hinputs).mp hfails, ?_⟩
  · exact (Bool.or_eq_true _ _).mp (List.all_eq_true.mp hinputs i hi)
  · rw [← checked_modelAccesses hinputs (touches_of_run hrun).2]
    exact (nodesBound_of_run hrun).mp hsound.nodes

/-- Where ngraph refuses nothing, such a model gets its graph. -/
theorem run_of_generates (hng : ng.Accepting) (h : Generates info device) :
    (graphRun info device ng).outcome = .ok true := by
  have hinputs := h.inputsSupported
  have hnodes : (nodesAt info device (List.range info.getOperationsSize)).all Option.isSome =
      true := all_nodesAt.mpr fun i hi => h.classes _ (getOperation_mem (List.mem_range.mp hi))
  have hfails := (any_modelAccesses h.classes hinputs).mpr h.serves
  have hharmless : ∀ u ∈ (construct info device).1.modelAccesses (construct info device).2,
      u.stops = false := by
    intro u hu
    rw [← Bool.not_eq_true]
    exact fun hstops => List.any_eq_false.mp hfails u hu (Access.fails_of_stops hstops)
  obtain ⟨created, hcreated⟩ := (follows_initializeModel (construct info device).1
    (construct info device).2).returns hharmless
    (fun c nodes hc => answer_accepting hng c hc nodes) {}
  have hyields := (yields_initializeModel (construct info device).1
    (construct info device).2).outcome hcreated
  have htrue : created = true := by
    rw [hyields]
    exact (Bool.and_eq_true _ _).mpr ⟨hinputs, hnodes⟩
  exact htrue ▸ hcreated

/-- And the run is sound, as far as constants and bound nodes go. -/
theorem sound_of_generates (h : Generates info device)
    (hrun : (graphRun info device ng).outcome = .ok true)
    (huntroubled : Untroubled (graphRun info device ng)) : Sound (graphRun info device ng) := by
  have hinputs := h.inputsSupported
  have hfails := (fails_of_run hrun).mpr ((any_modelAccesses h.classes hinputs).mpr h.serves)
  refine ⟨List.eq_nil_iff_forall_not_mem.mpr fun f hf => ?_, ?_⟩
  · obtain ⟨operand, rfl⟩ := huntroubled f hf
    exact hfails operand hf
  · rw [nodesBound_of_run hrun, checked_modelAccesses hinputs (touches_of_run hrun).2]
    exact h.bound

/-- **Generation.**  Whatever ngraph is, a graph only comes out of a sound run if the
model has all its operations need; and where ngraph refuses nothing, it does for every
such model whose run is not troubled otherwise. -/
theorem generateGraph_returns_iff :
    (∀ ng function, (construct info device).1.generateGraph (construct info device).2 ng =
        .ok (some function) → Sound (graphRun info device ng) → Generates info device) ∧
      ∀ ng : Ngraph, ng.Accepting → ((∃ function, (construct info device).1.generateGraph
        (construct info device).2 ng = .ok (some function)) ∧ Sound (graphRun info device ng) ↔
          Generates info device ∧ Untroubled (graphRun info device ng)) := by
  have honly : ∀ ng function, (construct info device).1.generateGraph (construct info device).2
      ng = .ok (some function) → Sound (graphRun info device ng) → Generates info device :=
    fun ng function hgraph => generates_of_run (generateGraph_eq_some hgraph).1
  refine ⟨honly, fun ng hng => ⟨fun h => ?_, fun h => ?_⟩⟩
  · obtain ⟨⟨function, hfunction⟩, hsound⟩ := h
    refine ⟨honly ng function hfunction hsound, fun f hf => ?_⟩
    rw [hsound.noFault] at hf
    cases hf
  · obtain ⟨hgenerates, huntroubled⟩ := h
    have hrun := run_of_generates hng hgenerates
    refine ⟨?_, sound_of_generates hgenerates hrun huntroubled⟩
    unfold graphRun at hrun
    unfold generateGraph
    dsimp only
    rw [hrun]
    exact ⟨_, congrArg Except.ok (if_pos (hng.acceptsFunction _ _))⟩

/-- The small model has all it needs. -/
theorem doublingInfo_generates : (∃ function, (construct doublingInfo .cpu).1.generateGraph
    (construct doublingInfo .cpu).2 .permissive = .ok (some function)) ∧
      Sound (graphRun doublingInfo .cpu .permissive) := by
  refine (generateGraph_returns_iff.2 .permissive ⟨fun _ _ => rfl, fun _ _ => rfl⟩).mpr
    ⟨⟨by decide, by decide, ?_, ?_⟩, fun f hf => ?_⟩
  · -- the activation of the sum is the only value that is read
    intro i hi cls hcls u hu
    match i, hi with
    | 0, _ =>
        obtain rfl := Option.some.inj hcls
        replace hu : u ∈ [Use.node 0, .node 1, .scalar .uint32 2, .set 2] := hu
        simp only [List.mem_cons, List.not_mem_nil, or_false] at hu
        rcases hu with rfl | rfl | rfl | rfl
        · exact ⟨nofun, fun _ => nofun⟩
        · exact ⟨nofun, fun _ => nofun⟩
        · exact ⟨rfl, rfl⟩
        · trivial
    | 1, _ =>
        obtain rfl := Option.some.inj hcls
        replace hu : u ∈ [Use.node 0, .set 3] := hu
        simp only [List.mem_cons, List.not_mem_nil, or_false] at hu
        rcases hu with rfl | rfl
        · exact ⟨nofun, fun _ => nofun⟩
        · trivial
  · exact ⟨rfl, rfl, trivial, trivial, rfl, trivial, trivial⟩
  · have hnone : (graphRun doublingInfo .cpu .permissive).selected Cmd.faulted = [] := rfl
    rw [hnone] at hf
    cases hf

end Generation

end NnHal
