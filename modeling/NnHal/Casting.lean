import NnHal.PlainSteps
import NnHal.QuantizedNodes

/-!
# `CAST`

`Cast::createNode` passes its input through where the types of two operations of
the model agree: those at the positions that the input and the output operand have
in the model's list of operands.
-/

namespace NnHal

open Command Tensors Quantization

/-! ## The converted node -/

/-- The element type `CAST` gives its output. -/
def OperandType.castElement : OperandType → Option ElementType
  | .tensorFloat32 => some .f32
  | .tensorFloat16 => some .f16
  | .tensorInt32 => some .i32
  | .tensorQuant8Asymm => some .u8
  | .tensorQuant8AsymmSigned | .tensorQuant8Symm => some .i8
  | .tensorQuant16Asymm => some .u16
  | .tensorQuant16Symm => some .i16
  | _ => none

/-- The node holds the numbers of the input in an element type, saturated where that
is an integer type. -/
def Node.Converts (M : Meaning Element) (type : OperandType) (input node : Node) : Prop :=
  ∃ element, type.castElement = some element ∧
    node.denote M 0 = retyped element (Conversion.saturating.apply element) (input.denote M 0)

theorem Node.sizeOf_lt (op : NodeOp) (input : Node) :
    sizeOf input < sizeOf (mk op [(input, 0)]) := by
  simp only [mk.sizeOf_spec, List.cons.sizeOf_spec, Prod.mk.sizeOf_spec]
  omega

section Convert

variable {M : Meaning Element} {conv : Conversion} {ng : Ngraph} {nodes : NgraphNodes}
variable {self : OperationsBase}

/-- A conversion to a floating-point type or to `i32` says what it gives. -/
theorem returns_castDirect (hM : M.Computes conv) {element : ElementType}
    (hsame : conv.apply element = Conversion.saturating.apply element) (input : Node) :
    Returns (answer ng) nodes (makeShared (.convert element) [input]) fun node =>
      sizeOf input < sizeOf node ∧
        node.denote M 0 =
          retyped element (Conversion.saturating.apply element) (input.denote M 0) := by
  refine returns_make ⟨Node.sizeOf_lt _ _, ?_⟩
  rw [Node.denote_mk_one, hM.convert, hsame]

/-- A conversion to a narrower type goes through `i32`, in which the numbers are
clamped. -/
theorem returns_clamped (hM : M.Computes conv) {element : ElementType} {range : IntRange}
    (hrange : element.range = some range) (hwithin : range.Within int32Range) (input : Node) :
    Returns (answer ng) nodes (Cast.clamped input range.low range.high element) fun node =>
      sizeOf input < sizeOf node ∧
        node.denote M 0 =
          retyped element (Conversion.saturating.apply element) (input.denote M 0) := by
  have hint32 : conv.apply .i32 = fun v => ((int32Range.clamp (truncate v) : Int) : Rat) :=
    funext conv.int32
  have hsaturate : Conversion.saturating.apply element =
      fun v => ((range.clamp (truncate v) : Int) : Rat) := by
    funext v
    simp only [Conversion.saturating, hrange]
  unfold Cast.clamped
  refine Returns.bind (Q := fun node => sizeOf input < sizeOf node ∧ node.denote M 0 =
    retyped .i32 (fun v => int32Range.clamp (truncate v)) (input.denote M 0)) (returns_make ?_)
    fun convertInput hconvert => ?_
  · refine ⟨Node.sizeOf_lt _ _, ?_⟩
    rw [Node.denote_mk_one, hM.convert, hint32]
  refine Returns.bind (Q := fun node => sizeOf input < sizeOf node ∧ node.denote M 0 =
    retyped .i32 (fun v => range.clamp (truncate v)) (input.denote M 0)) (returns_make ?_)
    fun clamped hclamped => ?_
  · refine ⟨hconvert.1.trans (Node.sizeOf_lt _ _), ?_⟩
    rw [Node.denote_mk_one, hconvert.2, hM.clamp .i32 _ _ _ (typed_retyped _), retyped_retyped]
    have hclamp : ∀ v : Rat, min (max ((int32Range.clamp (truncate v) : Int) : Rat) range.low)
        range.high = (range.clamp (truncate v) : Int) := by
      intro v
      rw [← IntRange.clamp_clamp hwithin]
      simp only [IntRange.clamp, Int.cast_min, Int.cast_max]
    simp only [hclamp]
  · refine returns_make ⟨hclamped.1.trans (Node.sizeOf_lt _ _), ?_⟩
    rw [Node.denote_mk_one, hclamped.2, hM.convert, retyped_retyped, hsaturate]
    simp only [conv.represented _ _ hrange _ (range.contains_clamp _)]

/-- Every branch builds on the input, and that of a type `CAST` gives converts it. -/
theorem returns_castConvert (hM : M.Computes conv) (input : Node) :
    Returns (answer ng) nodes (Cast.convert self input) fun node =>
      sizeOf input < sizeOf node ∧
        ((self.getOutputOperand 0).type.castElement.isSome = true →
          input.Converts M (self.getOutputOperand 0).type node) := by
  have hfloat : ∀ element, element = .f32 ∨ element = .f16 →
      conv.apply element = Conversion.saturating.apply element := by
    intro element h
    funext v
    rw [conv.float element v h, Conversion.saturating.float element v h]
  have hint32 : conv.apply .i32 = Conversion.saturating.apply .i32 := funext conv.int32
  have hclamped : ∀ (type : OperandType) (element : ElementType) (range : IntRange),
      type.castElement = some element → element.range = some range →
      int32Range.Contains range.low → int32Range.Contains range.high →
      Returns (answer ng) nodes (Cast.clamped input range.low range.high element) fun node =>
        sizeOf input < sizeOf node ∧
          (type.castElement.isSome = true → input.Converts M type node) := by
    intro type element range helement hrange hlow hhigh
    have hwithin : range.Within int32Range := fun v hv => ⟨hlow.1.trans hv.1, hv.2.trans hhigh.2⟩
    apply (returns_clamped hM hrange hwithin input).mono
    intro node hnode
    exact ⟨hnode.1, fun _ => ⟨element, helement, hnode.2⟩⟩
  unfold Cast.convert
  cases (self.getOutputOperand 0).type
  case tensorFloat32 =>
    exact (returns_castDirect hM (hfloat _ (.inl rfl)) input).mono
      fun node h => ⟨h.1, fun _ => ⟨_, rfl, h.2⟩⟩
  case tensorFloat16 =>
    exact (returns_castDirect hM (hfloat _ (.inr rfl)) input).mono
      fun node h => ⟨h.1, fun _ => ⟨_, rfl, h.2⟩⟩
  case tensorInt32 =>
    exact (returns_castDirect hM hint32 input).mono
      fun node h => ⟨h.1, fun _ => ⟨_, rfl, h.2⟩⟩
  case tensorQuant8Asymm =>
    exact hclamped _ .u8 ⟨0, 255, by decide⟩ rfl rfl (by decide) (by decide)
  case tensorQuant8AsymmSigned | tensorQuant8Symm =>
    exact hclamped _ .i8 ⟨-128, 127, by decide⟩ rfl rfl (by decide) (by decide)
  case tensorQuant16Asymm =>
    exact hclamped _ .u16 ⟨0, 65535, by decide⟩ rfl rfl (by decide) (by decide)
  case tensorQuant16Symm =>
    exact hclamped _ .i16 ⟨-32768, 32767, by decide⟩ rfl rfl (by decide) (by decide)
  all_goals exact returns_make ⟨Node.sizeOf_lt _ _, nofun⟩

end Convert

/-! ## Reads of the list of operations -/

/-- A read of `mModel.main.operations` past its end. -/
def Cmd.pastEnd : Cmd → Option Unit
  | .fault .vectorIndex => some ()
  | _ => none

section Reads

variable {self : OperationsBase}

theorem bounded_of_plain {α : Type} {p : Gen α} [hp : Plain p] : Quiet Cmd.pastEnd p := by
  apply hp.quiet
  intro c hc
  unfold Cmd.pastEnd
  split
  · exact hc.elim
  · rfl

theorem bounded_castConvert {input : Node} : Quiet Cmd.pastEnd (Cast.convert self input) := by
  have hclamped : ∀ low high element, Quiet Cmd.pastEnd (Cast.clamped input low high element) :=
    fun _ _ _ => (quiet_perform rfl).bind fun _ => (quiet_perform rfl).bind fun _ =>
      quiet_perform rfl
  unfold Cast.convert
  split <;> first | exact quiet_perform rfl | exact hclamped _ _ _

theorem bounded_setOperationOutput {index : Nat} {outNode : NodePtr} :
    Quiet Cmd.pastEnd (self.setOperationOutput index outNode) :=
  (quiet_perform rfl).bind fun _ => quiet_ite (quiet_perform rfl) (quiet_pure _)

/-- The reads of an index past the end: one, where the list is not longer. -/
def NnapiModelInfo.readsPastEnd (info : NnapiModelInfo) (index : Nat) : List Unit :=
  if index < info.mModel.operations.length then [] else [()]

theorem follows_getOperationType (info : NnapiModelInfo) (index : Nat) :
    Follows Cmd.pastEnd (info.getOperationType index) (info.readsPastEnd index) := by
  unfold NnapiModelInfo.getOperationType NnapiModelInfo.readsPastEnd
  by_cases hindex : index < info.mModel.operations.length
  · rw [if_pos hindex, List.getElem?_eq_getElem hindex]
    exact quiet_pure _
  · rw [if_neg hindex, List.getElem?_eq_none (not_lt.mp hindex)]
    exact follows_perform_bind rfl fun _ => quiet_pure _

theorem readsPastEnd_nil {info : NnapiModelInfo} {index : Nat} :
    info.readsPastEnd index = [] ↔ index < info.mModel.operations.length := by
  unfold NnapiModelInfo.readsPastEnd
  split <;> simp_all

theorem selected_pastEnd_nil {α : Type} {run : Ran NgraphNodes Cmd Stop α} :
    run.selected Cmd.pastEnd = [] ↔ ∀ sc ∈ run.trace, sc.2 ≠ .fault .vectorIndex := by
  unfold Ran.selected
  rw [List.filterMap_eq_nil_iff]
  constructor
  · intro hnone sc hsc hfault
    have hselect := hnone sc hsc
    rw [hfault] at hselect
    cases hselect
  · intro hall sc hsc
    unfold Cmd.pastEnd
    split
    · next hfault => exact absurd hfault (hall sc hsc)
    · rfl

/-- `CAST` reads the list at the numbers of both operands. -/
theorem Cast.follows_createNode :
    Follows Cmd.pastEnd (Cast.createNode self)
      (self.sModelInfo.readsPastEnd (self.inputIndex 0) ++
        self.sModelInfo.readsPastEnd (self.outputIndex 0)) := by
  apply bounded_of_plain.bind
  intro input
  apply (follows_getOperationType _ _).bind
  intro _
  refine Follows.bind_quiet (follows_getOperationType _ _) fun _ => ?_
  refine (quiet_ite (quiet_pure _) bounded_castConvert).bind fun _ => bounded_setOperationOutput

end Reads

/-! ## The run -/

/-- The type of the operation at an index, as the code reads it. -/
def NnapiModelInfo.operationTypeAt (info : NnapiModelInfo) (index : Nat) : OperationType :=
  (info.mModel.operations[index]?.map Operation.type).getD (.other 0)

/-- A run of `createNode` on an input node does what `CAST` is for. -/
structure Cast.Correct (base : OperationsBase) (M : Meaning Element) (input : Node)
    (run : Ran NgraphNodes Cmd Stop Unit) : Prop where
  /-- the input is passed through just where the types of the operands agree -/
  passes : run.state.mOutputAtOperandIndex (base.outputIndex 0) = some (input, 0) ↔
    (base.getInputOperand 0).type = (base.getOutputOperand 0).type
  converts : (base.getInputOperand 0).type ≠ (base.getOutputOperand 0).type →
    ∃ node, run.state.mOutputAtOperandIndex (base.outputIndex 0) = some (node, 0) ∧
      input.Converts M (base.getOutputOperand 0).type node
  /-- the list of operations is read nowhere past its end -/
  bounded : ∀ sc ∈ run.trace, sc.2 ≠ .fault .vectorIndex

/-- Both operands have the number of an operation, and those agree in their types
just where the operands do. -/
structure Cast.Numbered (base : OperationsBase) : Prop where
  input : base.inputIndex 0 < base.sModelInfo.mModel.operations.length
  output : base.outputIndex 0 < base.sModelInfo.mModel.operations.length
  types : base.sModelInfo.operationTypeAt (base.inputIndex 0) =
      base.sModelInfo.operationTypeAt (base.outputIndex 0) ↔
    (base.getInputOperand 0).type = (base.getOutputOperand 0).type

section Run

variable {M : Meaning Element} {conv : Conversion} {ng : Ngraph} {nodes : NgraphNodes}
variable {self : OperationsBase}

theorem returns_getOperationType (info : NnapiModelInfo) (index : Nat) :
    Returns (answer ng) nodes (info.getOperationType index) (· = info.operationTypeAt index) := by
  unfold NnapiModelInfo.getOperationType NnapiModelInfo.operationTypeAt
  cases info.mModel.operations[index]? with
  | some operation => exact returns_pure rfl
  | none =>
      refine Returns.bind (Q := fun _ => True) (returns_fault trivial) fun _ _ => ?_
      exact returns_pure rfl

/-- `createNode` compares the types of the two operations. -/
theorem Cast.ends_createNode {Q : Node → Prop} {input : Node}
    (hinput : (exec (answer ng) (self.getInputNode 0 false) nodes).outcome = .ok input)
    (hconvert : Returns (answer ng) nodes (Cast.convert self input) Q) :
    Ends (answer ng) nodes (Cast.createNode self) fun _ s =>
      ∃ node, s.mOutputAtOperandIndex (self.outputIndex 0) = some (node, 0) ∧
        if self.sModelInfo.operationTypeAt (self.inputIndex 0) =
          self.sModelInfo.operationTypeAt (self.outputIndex 0) then node = input else Q node := by
  have hread : Reading (self.getInputNode 0 false) := inferInstance
  unfold Cast.createNode
  refine (hread.returns_outcome ng nodes).bind_ends fun input' hinput' => ?_
  obtain rfl : input = input' := by
    rw [hinput] at hinput'
    exact Except.ok.inj hinput'
  refine (returns_getOperationType _ _).bind_ends fun _ hin => ?_
  refine (returns_getOperationType _ _).bind_ends fun _ hout => ?_
  rw [hin, hout]
  refine Returns.bind_ends (Q := fun node =>
    if self.sModelInfo.operationTypeAt (self.inputIndex 0) =
      self.sModelInfo.operationTypeAt (self.outputIndex 0) then node = input else Q node) ?_
    fun node hnode => (ends_setOperationOutput _ _).mono fun _ s hs => ⟨node, ?_, hnode⟩
  · refine returns_ite (fun heq => returns_pure ?_) fun hne => hconvert.mono fun node hnode => ?_
    · rw [if_pos heq]
    · rw [if_neg hne]
      exact hnode
  · rw [hs, Function.update_self]
    rfl

/-- **`CAST`.**  Whatever the model and the operation, a run that returns does what
`CAST` is for exactly when the two operands are numbered like operations whose types
agree just where those of the operands do. -/
theorem cast_correct_iff (hM : M.Computes conv)
    (hsignature : (self.getInputOperand 0).type ≠ (self.getOutputOperand 0).type →
      (self.getOutputOperand 0).type.castElement.isSome = true) {input : Node}
    (hinput : (exec (answer ng) (self.getInputNode 0 false) nodes).outcome = .ok input)
    (hrun : (exec (answer ng) (Cast.createNode self) nodes).outcome = .ok ()) :
    Cast.Correct self M input (exec (answer ng) (Cast.createNode self) nodes) ↔
      Cast.Numbered self := by
  have hbounded : (∀ sc ∈ (exec (answer ng) (Cast.createNode self) nodes).trace,
      sc.2 ≠ .fault .vectorIndex) ↔
      self.inputIndex 0 < self.sModelInfo.mModel.operations.length ∧
        self.outputIndex 0 < self.sModelInfo.mModel.operations.length := by
    rw [← selected_pastEnd_nil, Cast.follows_createNode.trace_eq hrun, List.append_eq_nil_iff,
      readsPastEnd_nil, readsPastEnd_nil]
  obtain ⟨node, hbound, hnode⟩ :=
    Cast.ends_createNode hinput (returns_castConvert hM input) () hrun
  have hpasses : (exec (answer ng) (Cast.createNode self) nodes).state.mOutputAtOperandIndex
      (self.outputIndex 0) = some (input, 0) ↔
      self.sModelInfo.operationTypeAt (self.inputIndex 0) =
        self.sModelInfo.operationTypeAt (self.outputIndex 0) := by
    rw [hbound, Option.some.injEq, Prod.mk.injEq, and_iff_left rfl]
    split at hnode
    · next heq => exact iff_of_true hnode heq
    · next hne =>
      refine iff_of_false (fun heq => ?_) hne
      rw [heq] at hnode
      exact lt_irrefl _ hnode.1
  constructor
  · intro h
    obtain ⟨hin, hout⟩ := hbounded.mp h.bounded
    exact ⟨hin, hout, hpasses.symm.trans h.passes⟩
  · intro h
    refine ⟨hpasses.trans h.types, fun hne => ⟨node, hbound, ?_⟩, hbounded.mpr ⟨h.input, h.output⟩⟩
    rw [if_neg (mt h.types.mp hne)] at hnode
    exact hnode.2 (hsignature hne)

end Run

/-! ### One cast -/

/-- A cast from `TENSOR_FLOAT32` to `TENSOR_INT32`, in front of some operations. -/
def oneCast (others : List Operation) : OperationsBase where
  sModelInfo :=
    { mModel :=
        { operands :=
            [{ type := .tensorFloat32, dimensions := [1], lifetime := .subgraphInput },
              { type := .tensorInt32, dimensions := [1], lifetime := .subgraphOutput },
              { type := .tensorInt32, dimensions := [1], lifetime := .subgraphOutput }]
          operations := { type := .cast, inputs := [0], outputs := [1] } :: others
          inputIndexes := [0]
          outputIndexes := [1, 2] } }
  sPluginType := .cpu
  mNnapiOperationIndex := 0
  mDefaultOutputIndex := 1

/-- The parameter of the input. -/
def castInput : Node := .mk (.parameter 0 .f32 [1]) []

def castNodes : NgraphNodes where
  mOutputAtOperandIndex _ := some (castInput, 0)

def castTensor (_ : Nat) : Tensor Element := Tensor.ofFn [1] fun _ => ⟨.f32, 5 / 2⟩

theorem oneCast_input (others : List Operation) :
    (exec (answer (.exact castTensor)) ((oneCast others).getInputNode 0 false)
      castNodes).outcome = .ok castInput := rfl

theorem oneCast_runs (others : List Operation) :
    (exec (answer (.exact castTensor)) (Cast.createNode (oneCast others)) castNodes).outcome =
      .ok () := by
  have huses : Follows Cmd.access (Cast.createNode (oneCast others)) [.output 0, .set 1 true] :=
    Cast.createNode_uses
  have hstop : Access.stop ∉ [Access.output 0, .set 1 true] := by decide
  have hreturns : ∃ u, (exec (answer (.exact castTensor)) (Cast.createNode (oneCast others))
      castNodes).outcome = .ok u := builds_of_follows huses hstop fun _ _ => rfl
  rcases hreturns with ⟨u, hu⟩
  exact hu

/-- An `ABS` behind the cast gives the output operand a number of its own. -/
theorem oneCast_correct :
    Cast.Correct (oneCast [{ type := .abs, inputs := [1], outputs := [2] }]) (exact castTensor)
      castInput (exec (answer (.exact castTensor))
        (Cast.createNode (oneCast [{ type := .abs, inputs := [1], outputs := [2] }]))
        castNodes) := by
  refine (cast_correct_iff exact_computes (fun _ => rfl) (oneCast_input _) (oneCast_runs _)).mpr ?_
  exact ⟨by decide, by decide, by decide⟩

/-- Alone in its model, the cast looks up an operation that is not there. -/
theorem oneCast_reads :
    ¬ ∀ (self : OperationsBase) (M : Meaning Element) (conv : Conversion) (ng : Ngraph)
      (nodes : NgraphNodes) (input : Node), M.Computes conv →
      ((self.getInputOperand 0).type ≠ (self.getOutputOperand 0).type →
        (self.getOutputOperand 0).type.castElement.isSome = true) →
      (exec (answer ng) (self.getInputNode 0 false) nodes).outcome = .ok input →
      (exec (answer ng) (Cast.createNode self) nodes).outcome = .ok () →
      Cast.Correct self M input (exec (answer ng) (Cast.createNode self) nodes) := by
  intro hall
  have hcorrect := hall (oneCast []) (exact castTensor) .saturating (.exact castTensor) castNodes
    castInput exact_computes (fun _ => rfl) (oneCast_input []) (oneCast_runs [])
  have hreads := Cast.follows_createNode.trace_eq (oneCast_runs [])
  rw [selected_pastEnd_nil.mpr hcorrect.bounded] at hreads
  cases hreads

end NnHal
