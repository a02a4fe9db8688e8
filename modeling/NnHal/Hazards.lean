import NnHal.OperationsFactory
import NnHal.ValidationReads
import NnHal.NnapiConvolutions

/-!
# Divisions and dimensions

Graph construction divides by numbers that the client has chosen, and looks up
dimensions at fixed positions.  `Cmd.hazard` picks the two faults this can end
in, together with the points where a run may end before it gets to one: the
assertions and exceptions of the driver, and the split of a tensor into no
part, which ngraph may refuse.

A program that reads the parameters its signature promises has no other
hazards than those its own divisors and positions give it.
-/

namespace NnHal

open Command Runs

/-- What decides whether a run divides by zero or leaves a dimension vector. -/
inductive Hazard
  | dimension
  | divideByZero
  /-- a tensor is split into no part -/
  | noPart
  | stop
  deriving DecidableEq, Repr

def Cmd.hazard : Cmd → Option Hazard
  | .fault .dimension => some .dimension
  | .fault .divideByZero => some .divideByZero
  | .make (.split 0) _ => some .noPart
  | .abort | .throwException => some .stop
  | _ => none

/-- The hazard is one of the two faults. -/
def Hazard.harmful : Hazard → Bool
  | .dimension | .divideByZero => true
  | .noPart | .stop => false

/-- The run ends at the hazard. -/
def Hazard.stops (splitsIntoNone : Bool) : Hazard → Bool
  | .dimension | .divideByZero => false
  | .noPart => !splitsIntoNone
  | .stop => true

/-- The run divides by zero nowhere, and nowhere reads a dimension past the
end of its vector. -/
def Defined {α : Type} (run : Ran NgraphNodes Cmd Stop α) : Prop :=
  ∀ sc ∈ run.trace, sc.2 ≠ .fault .divideByZero ∧ sc.2 ≠ .fault .dimension

/-- Whether ngraph builds a `Split` into no part is ngraph's; `false` says that
it does not. -/
def Ngraph.Splits (splitsIntoNone : Bool) (ng : Ngraph) : Prop :=
  splitsIntoNone = false → ∀ args, ng.accepts (.split 0) args = false

/-- An ngraph that refuses nothing else. -/
def Ngraph.splitting (splitsIntoNone : Bool) : Ngraph where
  accepts op _ := splitsIntoNone || op ≠ .split 0
  getShape _ := []
  getElementType _ := .f32
  getName _ := ""
  acceptsFunction _ _ := true

theorem Ngraph.splitting_splits (splitsIntoNone : Bool) :
    (Ngraph.splitting splitsIntoNone).Splits splitsIntoNone := by
  intro h args
  simp [splitting, h]

/-! ## Hazards and runs -/

section Runs

variable {α : Type} {splitsIntoNone : Bool}

/-- The two faults that are undefined behaviour. -/
theorem hazard_harmful {c : Cmd} {h : Hazard} (hc : c.hazard = some h) :
    h.harmful = true ↔ c = .fault .divideByZero ∨ c = .fault .dimension := by
  unfold Cmd.hazard at hc
  split at hc
  all_goals cases hc
  all_goals simp [Hazard.harmful]

/-- A run is defined when it shows none of them. -/
theorem defined_iff_selected {run : Ran NgraphNodes Cmd Stop α} :
    Defined run ↔ ∀ h ∈ run.selected Cmd.hazard, h.harmful = false := by
  constructor
  · intro hdefined h hmem
    obtain ⟨sc, hsc, hselect⟩ := List.mem_filterMap.mp hmem
    obtain ⟨hdivide, hdimension⟩ := hdefined sc hsc
    have hiff := hazard_harmful hselect
    simpa [hdivide, hdimension] using hiff
  · intro hselected sc hsc
    constructor
    · intro hdivide
      have hmem : Hazard.divideByZero ∈ run.selected Cmd.hazard :=
        List.mem_filterMap.mpr ⟨sc, hsc, by rw [hdivide]; rfl⟩
      cases hselected _ hmem
    · intro hdimension
      have hmem : Hazard.dimension ∈ run.selected Cmd.hazard :=
        List.mem_filterMap.mpr ⟨sc, hsc, by rw [hdimension]; rfl⟩
      cases hselected _ hmem

/-- Where ngraph refuses, the run ends. -/
theorem hazard_refused {ng : Ngraph} (hng : ng.Splits splitsIntoNone) (c : Cmd) (h : Hazard)
    (hc : c.hazard = some h) (hstops : h.stops splitsIntoNone = true) (s : NgraphNodes) :
    ∃ e, answer ng c s = .error e := by
  unfold Cmd.hazard at hc
  split at hc
  case h_3 args =>
    cases hc
    have hrefuses := hng (by simpa [Hazard.stops] using hstops) args
    exact ⟨.exception, by simp [answer, hrefuses]⟩
  case h_4 => exact ⟨.aborted, rfl⟩
  case h_5 => exact ⟨.exception, rfl⟩
  all_goals
    cases hc
    try cases hstops

/-- Otherwise it goes on. -/
theorem hazard_accepted (c : Cmd)
    (hc : ∀ h, c.hazard = some h → h.stops splitsIntoNone = false) (s : NgraphNodes) :
    ∃ rs, answer (.splitting splitsIntoNone) c s = .ok rs := by
  cases c with
  | abort | throwException =>
      have hstops := hc .stop rfl
      cases hstops
  | make op args =>
      have haccepts : (Ngraph.splitting splitsIntoNone).accepts op args = true := by
        by_cases hop : op = .split 0
        · subst hop
          have hstops := hc .noPart rfl
          simpa [Ngraph.splitting, Hazard.stops] using hstops
        · simp [Ngraph.splitting, hop]
      exact ⟨_, by simp only [answer, haccepts, if_true]; rfl⟩
  | _ => exact ⟨_, rfl⟩

/-- **Hazards decide.**  The runs of a program are free of the two faults
exactly when none is among its hazards up to the first at which it stops. -/
theorem defined_iff_hazards {p : Gen α} {hs : List Hazard}
    (hp : Follows Cmd.hazard p hs) :
    (∀ ng : Ngraph, ng.Splits splitsIntoNone → ∀ nodes, Defined (exec (answer ng) p nodes)) ↔
      ∀ h ∈ upto (Hazard.stops splitsIntoNone) hs, h.harmful = false := by
  constructor
  · intro hdefined
    have hrun := hdefined (.splitting splitsIntoNone) (Ngraph.splitting_splits _) {}
    rw [defined_iff_selected] at hrun
    rw [← hp.trace_eq_upto (hazard_refused (Ngraph.splitting_splits _)) hazard_accepted {}]
    exact hrun
  · intro hsafe ng hng nodes
    rw [defined_iff_selected]
    intro h hmem
    exact hsafe h ((hp.trace_upto (hazard_refused hng) nodes).subset hmem)

/-- The first harmful hazard is met, whatever ngraph refuses. -/
theorem harmless_iff_nil {hs : List Hazard} (hall : ∀ h ∈ hs, h.harmful = true) :
    (∀ h ∈ upto (Hazard.stops splitsIntoNone) hs, h.harmful = false) ↔ hs = [] := by
  cases hs with
  | nil => simp [upto]
  | cons h hs =>
      have hmem : h ∈ upto (Hazard.stops splitsIntoNone) (h :: hs) := by
        unfold upto
        split <;> simp
      have hharmful := hall h List.mem_cons_self
      constructor
      · intro hsafe
        have hfalse := hsafe h hmem
        rw [hharmful] at hfalse
        cases hfalse
      · intro hnil
        cases hnil

end Runs

/-! ## The shared helpers -/

section Calm

variable {α : Type}

/-- A constant is ngraph's own. -/
theorem calm_const {type : ElementType} {shape : List Nat} {vals : List Scalar} :
    Quiet Cmd.hazard (createConstNode type shape vals) := quiet_perform rfl

/-- A null pointer is no hazard of this kind. -/
theorem calm_deref {node : NodePtr} : Quiet Cmd.hazard (deref node) := by
  cases node with
  | none => exact Quiet.bind (quiet_perform rfl) fun _ => quiet_pure _
  | some n => exact quiet_pure n

theorem calm_shapeAt {node : Node} {i : Nat} : Quiet Cmd.hazard (shapeAt node i) := by
  apply Quiet.bind (quiet_perform rfl)
  intro shape
  cases shape[i]? with
  | none => exact Quiet.bind (quiet_perform rfl) fun _ => quiet_pure _
  | some d => exact quiet_pure d

theorem calm_readLocal [Inhabited α] {x : Option α} : Quiet Cmd.hazard (readLocal x) := by
  cases x with
  | none => exact Quiet.bind (quiet_perform rfl) fun _ => quiet_pure _
  | some v => exact quiet_pure v

theorem calm_transpose {type : ConversionType} {input : Output} :
    Quiet Cmd.hazard (transpose type input) :=
  Quiet.bind (quiet_perform rfl) fun _ => quiet_perform rfl

theorem calm_transposeUnless {useNchw : Bool} {type : ConversionType} {node : Node} :
    Quiet Cmd.hazard (transposeUnless useNchw type node) :=
  quiet_ite (quiet_pure _) calm_transpose

theorem calm_applyActivation {node : Node} {activationFn : Int} :
    Quiet Cmd.hazard (applyActivation node activationFn) := by
  unfold applyActivation
  refine quiet_ite (quiet_pure _) (quiet_ite (quiet_perform rfl) ?_)
  exact quiet_ite (quiet_perform rfl) (quiet_ite (quiet_perform rfl) (quiet_pure _))

/-- Binding an output is none. -/
theorem calm_setOperationOutput {self : OperationsBase} {index : Nat} {outNode : NodePtr} :
    Quiet Cmd.hazard (self.setOperationOutput index outNode) := by
  refine Quiet.bind (quiet_perform rfl) fun _ => ?_
  exact quiet_ite (quiet_perform rfl) (quiet_pure _)

/-- The lookup of a dimension. -/
theorem issues_dimAt (dims : List Nat) (i : Nat) :
    Issues Cmd.hazard (dimAt dims i) (if i < dims.length then [] else [.dimension])
      (· = dims.getD i 0) := by
  refine ⟨?_, yields_dimAt dims i⟩
  unfold dimAt
  by_cases hi : i < dims.length
  · rw [if_pos hi, List.getElem?_eq_getElem hi]
    exact quiet_pure _
  · rw [if_neg hi, List.getElem?_eq_none (by omega)]
    exact follows_perform_bind rfl fun _ => quiet_pure _

/-- A size that is there. -/
theorem issues_dimAt_of_lt {dims : List Nat} {i : Nat} (hi : i < dims.length) :
    Issues Cmd.hazard (dimAt dims i) [] (· = dims.getD i 0) := by
  simpa only [hi, if_true] using issues_dimAt dims i

/-- The hazard of a division. -/
def divisionHazard (divisor : Int) : List Hazard :=
  if divisor = 0 then [.divideByZero] else []

/-- Dividing by zero is undefined. -/
theorem harmful_divisionHazard {divisor : Int} :
    ∀ h ∈ divisionHazard divisor, h.harmful = true := by
  unfold divisionHazard
  split <;> simp [Hazard.harmful]

/-- And nothing else about a division is. -/
@[simp]
theorem divisionHazard_eq_nil {divisor : Int} : divisionHazard divisor = [] ↔ divisor ≠ 0 := by
  unfold divisionHazard
  split <;> simp_all

/-- The hazard of a division is that of its divisor. -/
theorem follows_divInt (a b : Int) :
    Follows Cmd.hazard (divInt a b) (divisionHazard b) := by
  unfold divInt divisionHazard faultIf
  by_cases hb : b = 0
  · simp only [hb, decide_true, if_true]
    exact follows_perform_bind rfl fun _ => quiet_pure _
  · simp only [hb, decide_false, Bool.false_eq_true, if_false]
    exact quiet_pure _

/-- Only the stride is divided by. -/
theorem follows_calculateExplicitPadding (inSize stride filterSize : Int) :
    Follows Cmd.hazard (calculateExplicitPadding inSize stride filterSize 1)
      (divisionHazard stride) := by
  refine (follows_divInt _ stride).bind_quiet fun _ => ?_
  exact quiet_ite (quiet_pure _) (quiet_pure _)

/-- The parameters that are there are given. -/
theorem issues_channelQuant {operand : Operand} {params : SymmPerChannelQuantParams}
    (h : operand.channelQuant = some params) :
    Issues Cmd.hazard (OperationsBase.channelQuant operand) [] (· = params) := by
  rw [OperationsBase.channelQuant, h]
  exact issues_pure rfl

end Calm

/-! ## Reading what the signature promises -/

/-- What the check of the signature promises of an operand, by the use the
operation makes of it.  A parameter is a constant of its type, a constant
tensor holds whole elements, and only a filter is quantized per channel. -/
def Use.Signed (self : OperationsBase) (filter : Option Nat) : Use → Prop
  | .scalar T input => self.isInputConst input = true ∧ (Use.scalar T input).Fits self
  | .node input _ =>
      (self.isInputConst input = true →
        ∀ element ∈ (self.getInputOperand input).type.constElement,
          (Use.vector element.2 input).Fits self) ∧
      ((self.getInputOperand input).type = .tensorQuant8SymmPerChannel → filter = some input)
  | _ => True

instance (self : OperationsBase) (filter : Option Nat) (u : Use) :
    Decidable (u.Signed self filter) :=
  match u with
  | .scalar .. | .node .. => inferInstanceAs (Decidable (_ ∧ _))
  | .rawOutput .. | .remove .. | .vector .. | .dequantize .. | .channelQuant .. | .set .. =>
      .isTrue trivial

section Reading

variable {self : OperationsBase} {filter : Option Nat}

/-- A constant that can be read. -/
theorem calm_getOperandMemory {info : NnapiModelInfo} {operand : Nat}
    (h : info.Readable operand) : Quiet Cmd.hazard (info.getOperandMemory operand) := by
  rcases h with ⟨hsubgraph, hcopy⟩
  unfold NnapiModelInfo.getOperandMemory
  refine Quiet.bind (quiet_perform rfl) fun _ => ?_
  cases hl : (info.getOperand operand).lifetime with
  | subgraph => exact absurd hl hsubgraph
  | constantCopy => simp [hl, nnAssert, hcopy hl]
  | constantReference =>
      simp only [hl]
      cases info.mPoolInfos[(info.getOperand operand).location.poolIndex]? with
      | none => exact Quiet.bind (quiet_perform rfl) fun _ => quiet_pure _
      | some buffer => exact quiet_pure _
  | temporaryVariable | subgraphInput | subgraphOutput | noValue => simp [hl]

/-- A scalar that is constant is its value. -/
theorem issues_parseOperationInput {T : CType} {input : Nat}
    (h : (Use.scalar T input).Signed self filter) :
    Issues Cmd.hazard (self.parseOperationInput T input) []
      (· = self.sModelInfo.scalarValue T (self.inputIndex input)) := by
  rcases h with ⟨-, hreadable, hlength⟩
  refine ⟨?_, NnapiModelInfo.yields_getConstOperand T _⟩
  refine (calm_getOperandMemory hreadable).bind_yields
    (NnapiModelInfo.yields_getOperandMemory _) fun m hm => ?_
  subst hm
  simp only [NnapiModelInfo.getConstFromBuffer, nnAssert, hlength, decide_true, if_true,
    pure_bind]
  cases self.sModelInfo.operandBuffer (self.inputIndex input) with
  | none => exact Quiet.bind (quiet_perform rfl) fun _ => quiet_pure _
  | some bytes => exact quiet_pure _

/-- A vector that is constant. -/
theorem calm_getConstVecInput {T : CType} {input : Nat} (h : (Use.vector T input).Fits self) :
    Quiet Cmd.hazard (self.getConstVecInput T input) := by
  rcases h with ⟨hreadable, hlength⟩
  refine (calm_getOperandMemory hreadable).bind_yields
    (NnapiModelInfo.yields_getOperandMemory _) fun m hm => ?_
  subst hm
  simp only [NnapiModelInfo.getConstVecFromBuffer, nnAssert, hlength, decide_true, if_true,
    pure_bind]
  cases self.sModelInfo.operandBuffer (self.inputIndex input) with
  | none =>
      refine Quiet.bind ?_ fun _ => quiet_pure _
      exact quiet_ite (quiet_perform rfl) (quiet_pure _)
  | some bytes => exact quiet_pure _

theorem issues_parseInt32 {input : Nat} (h : (Use.scalar .uint32 input).Signed self filter) :
    Issues Cmd.hazard (self.parseInt32 input) [] (· = self.int32Input input) := by
  refine (issues_parseOperationInput h).step fun v hv => issues_pure ?_
  rw [hv, toInt32_scalarValue]
  rfl

/-- A per-channel operand has parameters for a channel of the first input. -/
def OperationsBase.ChannelInRank (self : OperationsBase) (operand : Operand) : Prop :=
  operand.type = .tensorQuant8SymmPerChannel →
    ∃ params, operand.channelQuant = some params ∧
      params.channelDim < (self.getInputOperandDimensions 0).length

/-- A channel below the rank. -/
theorem calm_channelScaleNode {operand : Operand} (h : self.ChannelInRank operand)
    (htype : operand.type = .tensorQuant8SymmPerChannel) :
    Quiet Cmd.hazard (self.channelScaleNode operand) := by
  obtain ⟨params, hparams, hlt⟩ := h htype
  refine ((issues_channelQuant hparams).step (P := fun _ => True) fun v hv => ?_).follows
  subst hv
  have hge : ¬ (self.getInputOperandDimensions 0).length < v.channelDim := by omega
  have hne : (self.getInputOperandDimensions 0).length ≠ v.channelDim := by omega
  simp only [hge, if_false, faultIf, hne, decide_false, Bool.false_eq_true]
  exact calm_const.issues

/-- The same for an operand that is dequantized. -/
theorem calm_dequantizeNode {input : Node} {index : Nat} {type : ElementType}
    (h : self.ChannelInRank (self.sModelInfo.getOperand index)) :
    Quiet Cmd.hazard (self.dequantizeNode input index type) := by
  refine Quiet.bind (quiet_perform rfl) fun _ => ?_
  refine Quiet.bind (quiet_ite (quiet_perform rfl) (quiet_pure _)) fun _ => ?_
  refine Quiet.bind ?_ fun _ => quiet_ite (quiet_perform rfl) (quiet_pure _)
  split
  · next htype => exact Quiet.bind (calm_channelScaleNode h htype) fun _ => quiet_perform rfl
  · refine Quiet.bind calm_const fun _ => Quiet.bind calm_const fun _ => ?_
    refine Quiet.bind ?_ fun _ => quiet_perform rfl
    exact quiet_ite (quiet_perform rfl) (quiet_pure _)

/-- An input of the kind the signature asks for. -/
theorem calm_getInputNode {input : Nat} {dequantize : Bool}
    (h : (Use.node input dequantize).Signed self filter)
    (hchannel : self.ChannelInRank (self.getInputOperand input)) :
    Quiet Cmd.hazard (self.getInputNode input dequantize) := by
  have hlast : ∀ node : Node, Quiet Cmd.hazard
      (if (dequantize &&
          (self.sModelInfo.getOperandType (self.inputIndex input)).isQuantized) = true
        then self.dequantizeNode node (self.inputIndex input) .f32
        else pure node) :=
    fun node => quiet_ite (calm_dequantizeNode hchannel) (quiet_pure _)
  unfold OperationsBase.getInputNode
  by_cases hconst : self.sModelInfo.isOperandLifeTimeConst (self.inputIndex input) = true
  · simp only [hconst, if_true]
    cases helement : (self.sModelInfo.getOperandType (self.inputIndex input)).constElement with
    | none => exact Quiet.bind (quiet_perform rfl) fun _ => quiet_pure _
    | some element =>
        have hfits := h.1 hconst element helement
        refine Quiet.bind (calm_getConstVecInput hfits) fun _ => ?_
        exact Quiet.bind calm_const fun node => hlast node
  · rw [if_neg hconst]
    exact Quiet.bind (quiet_perform rfl) fun output => hlast output.1

/-- A tensor that is no filter is not quantized per channel. -/
theorem Use.Signed.channelInRank {input : Nat} {dequantize : Bool}
    (h : (Use.node input dequantize).Signed self filter) (hne : filter ≠ some input) :
    self.ChannelInRank (self.getInputOperand input) := by
  intro htype
  exact absurd (h.2 htype) hne

theorem calm_tensor {input : Nat} {dequantize : Bool}
    (h : (Use.node input dequantize).Signed self filter) (hne : filter ≠ some input) :
    Quiet Cmd.hazard (self.getInputNode input dequantize) :=
  calm_getInputNode h (h.channelInRank hne)

end Reading

end NnHal
