import NnHal.QuantizedNodes
import NnHal.Reading
import NnHal.Slicing

/-!
# Where quantized operands are emitted

Four places choose the element type an operand's integers are stored in: the
default connection, `QUANTIZE`, `SPLIT` and `TOPK_V2`.  Two of them take `u8` for
every type, also for the signed one.
-/

namespace NnHal

open Command Tensors Quantization

/-! ## The four places -/

inductive Emitter
  | connection
  | quantize
  | split
  | topkV2
  deriving DecidableEq, Repr

namespace Emitter

/-- The quantized types the outputs of the operations may have. -/
def allows : Emitter → OperandType → Bool
  | connection, type => type.affineRange.isSome
  | quantize, type | split, type | topkV2, type =>
      type = .tensorQuant8Asymm ∨ type = .tensorQuant8AsymmSigned

/-- The element type the code stores the integers in. -/
def element : Emitter → OperandType → ElementType
  | connection, type | topkV2, type => type.storage
  | quantize, _ | split, _ => .u8

/-- Every type but the signed one of `QUANTIZE` and `SPLIT`. -/
def faithful (emitter : Emitter) (type : OperandType) : Bool :=
  ¬ ((emitter = quantize ∨ emitter = split) ∧ type = .tensorQuant8AsymmSigned)

/-- What the element type represents, by the emitter and the operand's range. -/
theorem element_cases {emitter : Emitter} {type : OperandType} {range : IntRange}
    (hallows : emitter.allows type = true) (hrange : type.affineRange = some range) :
    (emitter.faithful type = true ∧ (emitter.element type).range = some range) ∨
      (emitter.faithful type = false ∧ (emitter.element type).range = some ⟨0, 255, by decide⟩ ∧
        range = ⟨-128, 127, by decide⟩) := by
  have hstorage := (OperandType.affineRange_cases hrange).1
  cases emitter with
  | connection => exact .inl ⟨by simp [faithful], hstorage⟩
  | topkV2 => exact .inl ⟨by simp [faithful], hstorage⟩
  | quantize | split =>
      rcases of_decide_eq_true hallows with rfl | rfl
      · exact .inl ⟨rfl, hstorage⟩
      · exact .inr ⟨rfl, rfl, (Option.some.inj hrange).symm⟩

end Emitter

/-! ## What they bind -/

/-- A run of the program binds the node to the operand. -/
def Binds (ng : Ngraph) (nodes : NgraphNodes) (p : Gen Unit) (index : Nat) (node : Node) : Prop :=
  (exec (answer ng) p nodes).outcome = .ok () ∧
    (exec (answer ng) p nodes).state.mOutputAtOperandIndex index = some (node, 0)

/-- The integers that `QuantizeNode` makes of numbers, in the operand's own type. -/
def Operand.integers (o : Operand) (a : Affine Rat) (x : Tensor Element) : Tensor Element :=
  retyped o.type.storage (fun v => a.machineQuantize v) x

theorem Operand.integers_retyped {o : Operand} {a : Affine Rat} {x : Tensor Element}
    {type : ElementType} : o.integers a (retyped type (fun v => v) x) = o.integers a x :=
  retyped_retyped _ _ x

/-- The axis of `SPLIT`, and the number of entries of `TOPK_V2`. -/
def OperationsBase.secondInput (self : OperationsBase) : Int :=
  self.sModelInfo.scalarValue .int32 (self.inputIndex 1)

/-- Its constant. -/
def OperationsBase.secondNode (self : OperationsBase) : Node :=
  .mk (.constant .i32 [] [.int self.secondInput]) []

/-- The node `SPLIT` cuts its input with. -/
def Split.node (self : OperationsBase) (input : Node) : Node :=
  .mk (.split (Split.numSplits self)) [(input, 0), (self.secondNode, 0)]

/-- The node `TOPK_V2` finds the largest entries with. -/
def TopkV2.node (self : OperationsBase) (input : Node) : Node :=
  .mk (.topK (-1) true true) [(input, 0), (self.secondNode, 0)]

/-- The outputs at the first positions are different operands. -/
def OperationsBase.DistinctOutputs (self : OperationsBase) (positions : List Nat) : Prop :=
  (positions.map self.outputIndex).Nodup

/-- The node is bound to the operand at the index, which is to hold the integers of
the tensor. -/
inductive Emits (M : Meaning Element) (ng : Ngraph) (nodes : NgraphNodes) (self : OperationsBase)
    (a : Affine Rat) : Emitter → Nat → Tensor Element → Node → Prop
  | connection {createNode : Gen Node} {made node : Node}
      (hmade : (exec (answer ng) createNode nodes).outcome = .ok made)
      (hbinds : Binds ng nodes (self.connectDefault createNode) self.mDefaultOutputIndex node) :
      Emits M ng nodes self a .connection self.mDefaultOutputIndex
        ((self.sModelInfo.getOperand self.mDefaultOutputIndex).integers a (made.denote M 0)) node
  | quantize {input node : Node}
      (hinput : (exec (answer ng) (self.getInputNode 0) nodes).outcome = .ok input)
      (hbinds : Binds ng nodes (Quantize.createNode self) (self.outputIndex 0) node) :
      Emits M ng nodes self a .quantize (self.outputIndex 0)
        ((self.getOutputOperand 0).integers a (input.denote M 0)) node
  | split {input node : Node} {k : Nat}
      (hinput : (exec (answer ng) (self.getInputNode 0 false) nodes).outcome = .ok input)
      (hdistinct : self.DistinctOutputs (List.range (Split.numSplits self)))
      (hk : k < Split.numSplits self)
      (htype : (self.getInputOperand 0).type = (self.getOutputOperand k).type)
      (hbinds : Binds ng nodes (Split.createNode self) (self.outputIndex k) node) :
      Emits M ng nodes self a .split (self.outputIndex k) ((Split.node self input).denote M k) node
  | topkV2 {input node : Node}
      (hinput : (exec (answer ng) (self.getInputNode 0) nodes).outcome = .ok input)
      (hdistinct : self.DistinctOutputs [0, 1])
      (hbinds : Binds ng nodes (TopkV2.createNode self) (self.outputIndex 0) node) :
      Emits M ng nodes self a .topkV2 (self.outputIndex 0)
        ((self.getOutputOperand 0).integers a ((TopkV2.node self input).denote M 0)) node

section Nodes

variable {M : Meaning Element} {conv : Conversion} {ng : Ngraph} {nodes : NgraphNodes}
variable {self : OperationsBase} {a : Affine Rat}

/-- `QuantizeNode` stores the integers in the type it is asked for. -/
theorem returns_integers (hM : M.Computes conv) (hng : ng.Types M) {index : Nat}
    (ho : (self.sModelInfo.getOperand index).Stores a) (input : Node) (type : ElementType) :
    Returns (answer ng) nodes (self.quantizeNode input index type) fun node =>
      node.denote M 0 = retyped type (conv.apply type)
        ((self.sModelInfo.getOperand index).integers a (input.denote M 0)) := by
  apply (returns_quantizeNode hM hng ho input type).mono
  intro node hnode
  rw [hnode, Operand.integers, retyped_retyped]

/-- A program whose result is known, in front. -/
theorem ends_known {α β : Type} {p : Gen α} {f : α → Gen β} {v : α} {Q : β → NgraphNodes → Prop}
    (hp : (exec (answer ng) p nodes).outcome = .ok v)
    (hf : ∀ s, Ends (answer ng) s (f v) Q) : Ends (answer ng) nodes (p >>= f) Q := by
  have hends : Ends (answer ng) nodes p fun u _ => u = v := by
    intro u hu
    exact Except.ok.inj (hu.symm.trans hp)
  refine hends.bind fun u s hu => ?_
  rw [hu]
  exact hf s

/-- The branches of the default connection take the storage type. -/
theorem returns_storage {P : ElementType → Node → Prop} {quantize : ElementType → Gen Node}
    {otherwise : Gen Node} {type : OperandType} {range : IntRange}
    (hrange : type.affineRange = some range)
    (h : ∀ element, Returns (answer ng) nodes (quantize element) (P element)) :
    Returns (answer ng) nodes
      (match type with
      | .tensorQuant8Asymm => quantize .u8
      | .tensorQuant8AsymmSigned | .tensorQuant8Symm => quantize .i8
      | .tensorQuant16Asymm => quantize .u16
      | .tensorQuant16Symm => quantize .i16
      | _ => otherwise) (P type.storage) := by
  cases type
  case tensorQuant8Asymm => exact h .u8
  case tensorQuant8AsymmSigned | tensorQuant8Symm => exact h .i8
  case tensorQuant16Asymm => exact h .u16
  case tensorQuant16Symm => exact h .i16
  all_goals cases hrange

/-- The default connection quantizes to the storage type of the operand. -/
theorem ends_connectDefault (hM : M.Computes conv) (hng : ng.Types M)
    (ho : (self.sModelInfo.getOperand self.mDefaultOutputIndex).Stores a) {createNode : Gen Node}
    {made : Node} (hmade : (exec (answer ng) createNode nodes).outcome = .ok made) :
    Ends (answer ng) nodes (self.connectDefault createNode) fun _ s => ∃ node,
      s.mOutputAtOperandIndex self.mDefaultOutputIndex = some (node, 0) ∧
      node.denote M 0 = retyped
        (self.sModelInfo.getOperand self.mDefaultOutputIndex).type.storage
        (conv.apply (self.sModelInfo.getOperand self.mDefaultOutputIndex).type.storage)
        ((self.sModelInfo.getOperand self.mDefaultOutputIndex).integers a (made.denote M 0)) := by
  have hrange := ho.range
  have htype : self.sModelInfo.getOperandType self.mDefaultOutputIndex =
      (self.sModelInfo.getOperand self.mDefaultOutputIndex).type := rfl
  unfold OperationsBase.connectDefault
  refine ends_known hmade fun s => ?_
  refine Returns.bind_ends (Q := fun node => node.denote M 0 = retyped
    (self.sModelInfo.getOperand self.mDefaultOutputIndex).type.storage
    (conv.apply (self.sModelInfo.getOperand self.mDefaultOutputIndex).type.storage)
    ((self.sModelInfo.getOperand self.mDefaultOutputIndex).integers a (made.denote M 0))) ?_
    fun node hnode => ?_
  · rw [htype]
    exact returns_storage hrange fun type => returns_integers hM hng ho made type
  · refine (ends_addModelOutput _ _).bind fun _ s' _ => ?_
    refine (ends_setOutput _ _).mono fun _ s'' hs => ⟨node, ?_, hnode⟩
    rw [hs, Function.update_self]

/-- `QUANTIZE` stores the integers in `u8`. -/
theorem ends_quantize (hM : M.Computes conv) (hng : ng.Types M)
    (ho : (self.getOutputOperand 0).Stores a) {input : Node}
    (hinput : (exec (answer ng) (self.getInputNode 0) nodes).outcome = .ok input) :
    Ends (answer ng) nodes (Quantize.createNode self) fun _ s => ∃ node,
      s.mOutputAtOperandIndex (self.outputIndex 0) = some (node, 0) ∧
      node.denote M 0 = retyped .u8 (conv.apply .u8)
        ((self.getOutputOperand 0).integers a (input.denote M 0)) := by
  unfold Quantize.createNode
  refine ends_known hinput fun s => ?_
  refine (returns_integers hM hng ho input .u8).bind_ends fun node hnode => ?_
  refine (ends_setOperationOutput _ _).mono fun _ s' hs => ⟨node, ?_, hnode⟩
  rw [hs, Function.update_self]
  rfl

/-- `SPLIT` converts every part of a quantized input to `u8`. -/
theorem ends_split (hM : M.Computes conv)
    (htype : (self.getInputOperand 0).type = .tensorQuant8Asymm ∨
      (self.getInputOperand 0).type = .tensorQuant8AsymmSigned) {input : Node}
    (hinput : (exec (answer ng) (self.getInputNode 0 false) nodes).outcome = .ok input)
    (hdistinct : self.DistinctOutputs (List.range (Split.numSplits self))) :
    Ends (answer ng) nodes (Split.createNode self) fun _ s => ∀ k < Split.numSplits self,
      ∃ node, s.mOutputAtOperandIndex (self.outputIndex k) = some (node, 0) ∧
        node.denote M 0 = retyped .u8 (conv.apply .u8) ((Split.node self input).denote M k) := by
  unfold Split.createNode
  refine ends_known hinput fun s => ?_
  refine returns_getConstOperand.bind_ends ?_
  intro _ heq
  subst heq
  refine Returns.bind_ends (Q := (· = self.secondNode)) (returns_const rfl) ?_
  intro _ heq
  subst heq
  refine returns_getConstOperand.bind_ends ?_
  intro _ heq
  subst heq
  refine Returns.bind_ends (Q := (· = Split.node self input)) (returns_make rfl) ?_
  intro _ heq
  subst heq
  have hround : ∀ i s, Ends (answer ng) s (do
      let index ← Split.outputAt self i
      self.setConverted index (Split.outNode self (Split.node self input) i))
      fun _ s' => ∃ output, output = some (.mk (.convert .u8) [(Split.node self input, i)], 0) ∧
        s'.mOutputAtOperandIndex =
          Function.update s.mOutputAtOperandIndex (self.outputIndex i) output := by
    intro i s
    refine Returns.bind_ends (Q := (· = self.outputIndex i)) (returns_elementAt rfl) ?_
    intro _ heq
    subst heq
    have hconvert : Split.outNode self (Split.node self input) i =
        some (makeShared (.convert .u8) [(Split.node self input, i)]) := by
      unfold Split.outNode
      rcases htype with h | h <;> rw [h] <;> rfl
    rw [hconvert]
    refine (ends_setConverted (Q := (· = .mk (.convert .u8) [(Split.node self input, i)])) _
      (returns_make rfl)).mono ?_
    intro _ s' hboth
    rcases hboth with ⟨_, rfl, hs⟩
    exact ⟨_, rfl, hs⟩
  refine (ends_forM hround hdistinct).mono fun _ s' hs k hk => ?_
  have hbound := hs.1 k (List.mem_range.mpr hk)
  refine ⟨_, hbound, ?_⟩
  rw [Node.denote_mk_one, hM.convert]

/-- `TOPK_V2` quantizes its values to the storage type of the operand. -/
theorem ends_topk (hM : M.Computes conv) (hng : ng.Types M)
    (ho : (self.getOutputOperand 0).Stores a)
    (htype : (self.getOutputOperand 0).type = .tensorQuant8Asymm ∨
      (self.getOutputOperand 0).type = .tensorQuant8AsymmSigned) {input : Node}
    (hinput : (exec (answer ng) (self.getInputNode 0) nodes).outcome = .ok input)
    (hdistinct : self.DistinctOutputs [0, 1]) :
    Ends (answer ng) nodes (TopkV2.createNode self) fun _ s => ∃ node,
      s.mOutputAtOperandIndex (self.outputIndex 0) = some (node, 0) ∧
      node.denote M 0 = retyped (self.getOutputOperand 0).type.storage
        (conv.apply (self.getOutputOperand 0).type.storage)
        ((self.getOutputOperand 0).integers a ((TopkV2.node self input).denote M 0)) := by
  have hfirst : ∃ program, TopkV2.outNode self (TopkV2.node self input) 0 = some program ∧
      ∀ s, Returns (answer ng) s program fun node => node.denote M 0 =
        retyped (self.getOutputOperand 0).type.storage
          (conv.apply (self.getOutputOperand 0).type.storage)
          ((self.getOutputOperand 0).integers a ((TopkV2.node self input).denote M 0)) := by
    have hquantize : ∀ element s, Returns (answer ng) s (do
        let outNode ← makeShared (.convert .f32) [(TopkV2.node self input).output 0]
        self.quantizeNode outNode (self.outputIndex 0) element) fun node =>
          node.denote M 0 = retyped element (conv.apply element)
            ((self.getOutputOperand 0).integers a ((TopkV2.node self input).denote M 0)) := by
      intro element s
      refine Returns.bind (Q := fun node => node.denote M 0 =
        retyped .f32 (fun v => v) ((TopkV2.node self input).denote M 0)) (returns_make ?_)
        fun node hnode => (returns_integers hM hng ho node element).mono fun result hresult => ?_
      · have hfloat : conv.apply .f32 = fun v => v := funext fun v => conv.float .f32 v (.inl rfl)
        rw [Node.denote_mk_one, hM.convert, hfloat]
        rfl
      · rw [hresult, hnode, Operand.integers_retyped]
        rfl
    unfold TopkV2.outNode
    rcases htype with h | h <;> rw [h]
    · exact ⟨_, rfl, hquantize .u8⟩
    · exact ⟨_, rfl, hquantize .i8⟩
  have hround : ∀ i s, Ends (answer ng) s
      (self.setConverted (self.outputIndex i) (TopkV2.outNode self (TopkV2.node self input) i))
      fun _ s' => ∃ output, (i = 0 → ∃ node, output = some (node, 0) ∧ node.denote M 0 =
          retyped (self.getOutputOperand 0).type.storage
            (conv.apply (self.getOutputOperand 0).type.storage)
            ((self.getOutputOperand 0).integers a ((TopkV2.node self input).denote M 0))) ∧
        s'.mOutputAtOperandIndex =
          Function.update s.mOutputAtOperandIndex (self.outputIndex i) output := by
    intro i s
    by_cases hi : i = 0
    · subst hi
      rcases hfirst with ⟨program, hprogram, hreturns⟩
      rw [hprogram]
      refine (ends_setConverted _ (hreturns s)).mono fun _ s' hs => ?_
      rcases hs with ⟨node, hnode, hset⟩
      exact ⟨some (node, 0), fun _ => ⟨node, rfl, hnode⟩, hset⟩
    · refine (ends_setReading _ (TopkV2.reading_outNode _ _)).mono fun _ s' hs => ?_
      rcases hs with ⟨output, hset⟩
      exact ⟨output, fun h => absurd h hi, hset⟩
  unfold TopkV2.createNode
  refine ends_known hinput fun s => ?_
  refine returns_getConstOperand.bind_ends ?_
  intro _ heq
  subst heq
  refine Returns.bind_ends (Q := (· = self.secondNode)) (returns_const rfl) ?_
  intro _ heq
  subst heq
  refine Returns.bind_ends (Q := (· = TopkV2.node self input)) (returns_make rfl) ?_
  intro _ heq
  subst heq
  refine (ends_forM hround hdistinct).mono fun _ s' hs => ?_
  exact hs.1 0 List.mem_cons_self rfl

/-- What a place binds: the integers, converted to its element type. -/
theorem Emits.denote (hM : M.Computes conv) (hng : ng.Types M) {emitter : Emitter} {index : Nat}
    {values : Tensor Element} {node : Node} (h : Emits M ng nodes self a emitter index values node)
    (ho : (self.sModelInfo.getOperand index).Stores a)
    (hallows : emitter.allows (self.sModelInfo.getOperand index).type = true) :
    node.denote M 0 = retyped (emitter.element (self.sModelInfo.getOperand index).type)
      (conv.apply (emitter.element (self.sModelInfo.getOperand index).type)) values := by
  cases h with
  | connection hmade hbinds =>
      obtain ⟨bound, hbound, hdenote⟩ := ends_connectDefault hM hng ho hmade () hbinds.1
      cases hbound.symm.trans hbinds.2
      exact hdenote
  | quantize hinput hbinds =>
      obtain ⟨bound, hbound, hdenote⟩ := ends_quantize hM hng ho hinput () hbinds.1
      cases hbound.symm.trans hbinds.2
      exact hdenote
  | split hinput hdistinct hk htype hbinds =>
      have hcases := of_decide_eq_true hallows
      have hinputType := htype ▸ hcases
      obtain ⟨bound, hbound, hdenote⟩ :=
        ends_split hM hinputType hinput hdistinct () hbinds.1 _ hk
      cases hbound.symm.trans hbinds.2
      exact hdenote
  | topkV2 hinput hdistinct hbinds =>
      have hcases := of_decide_eq_true hallows
      obtain ⟨bound, hbound, hdenote⟩ := ends_topk hM hng ho hcases hinput hdistinct () hbinds.1
      cases hbound.symm.trans hbinds.2
      exact hdenote

/-! ## What they hold -/

/-- The entry is the integer, in an element type that represents the whole range. -/
def Node.Holds (M : Meaning Element) (node : Node) (i : List Int) (range : IntRange) (q : Int) :
    Prop :=
  (∃ r, ((node.denote M 0).get i).type.range = some r ∧ range.Within r) ∧ node.valueAt M i = q

/-- An integer of a range is kept by the element type of the place, unless it is a
negative one in `u8`. -/
theorem Emitter.apply_element {emitter : Emitter} {type : OperandType} {range : IntRange} {q : Int}
    (hallows : emitter.allows type = true) (hrange : type.affineRange = some range)
    (hq : range.Contains q) :
    conv.apply (emitter.element type) q = q ↔ emitter.faithful type = true ∨ 0 ≤ q := by
  rcases Emitter.element_cases hallows hrange with
    ⟨hfaithful, helement⟩ | ⟨hfaithful, helement, rfl⟩
  · exact iff_of_true (conv.represented _ _ helement q hq) (.inl hfaithful)
  · rw [hfaithful]
    constructor
    · intro heq
      obtain ⟨n, hn, happly⟩ := conv.lands _ _ helement (q : Rat)
      rw [happly, Int.cast_inj] at heq
      rw [← heq]
      exact .inr hn.1
    · intro hnonneg
      have hsigned : -128 ≤ q ∧ q ≤ 127 := hq
      have hnonneg' : 0 ≤ q := hnonneg.resolve_left Bool.false_ne_true
      have hbelow : q ≤ 255 := by omega
      have hcontains : (⟨0, 255, by decide⟩ : IntRange).Contains q := ⟨hnonneg', hbelow⟩
      exact conv.represented _ _ helement q hcontains

/-- The element type of the place represents the whole range exactly when it is the
operand's own. -/
theorem Emitter.element_within {emitter : Emitter} {type : OperandType} {range : IntRange}
    (hallows : emitter.allows type = true) (hrange : type.affineRange = some range) :
    (∃ r, (emitter.element type).range = some r ∧ range.Within r) ↔
      emitter.faithful type = true := by
  rcases Emitter.element_cases hallows hrange with
    ⟨hfaithful, helement⟩ | ⟨hfaithful, helement, rfl⟩
  · exact iff_of_true ⟨range, helement, fun _ hv => hv⟩ hfaithful
  · rw [hfaithful]
    refine iff_of_false ?_ Bool.false_ne_true
    intro hwithin
    rcases hwithin with ⟨r, hr, hall⟩
    obtain rfl := Option.some.inj (helement.symm.trans hr)
    exact absurd (hall (-128) (by decide)) (by decide)

/-- A node that holds converted integers. -/
theorem Node.holds_iff {node : Node} {x : Tensor Element} {emitter : Emitter} {type : OperandType}
    {range : IntRange} {i : List Int} {q : Int}
    (hnode : node.denote M 0 =
      retyped (emitter.element type) (conv.apply (emitter.element type)) x)
    (hallows : emitter.allows type = true) (hrange : type.affineRange = some range)
    (hi : Inside x.shape i) (hvalue : (x.get i).value = q) (hq : range.Contains q) :
    node.Holds M i range q ↔ emitter.faithful type = true := by
  have hentry : (node.denote M 0).get i =
      ⟨emitter.element type, conv.apply (emitter.element type) q⟩ := by
    rw [hnode, get_retyped hi, hvalue]
  unfold Node.Holds Node.valueAt
  rw [hentry, Emitter.element_within hallows hrange, Emitter.apply_element hallows hrange hq]
  exact and_iff_left_of_imp .inl

/-- The nodes a run of `SPLIT` binds to its outputs, one after the other. -/
structure SplitsInto (ng : Ngraph) (nodes : NgraphNodes) (base : OperationsBase) (input : Node)
    (parts : List Node) : Prop where
  input : (exec (answer ng) (base.getInputNode 0 false) nodes).outcome = .ok input
  distinct : base.DistinctOutputs (List.range (Split.numSplits base))
  length : parts.length = Split.numSplits base
  binds : ∀ k (_ : k < parts.length),
    Binds ng nodes (Split.createNode base) (base.outputIndex k) parts[k]

/-- `SPLIT` cuts the axis into parts of one size. -/
structure SplitsEvenly (M : Meaning Element) (base : OperationsBase) (input : Node) (size : Nat) :
    Prop where
  low : -(input.denote M 0).shape.length ≤ base.secondInput
  high : base.secondInput < (input.denote M 0).shape.length
  positive : 0 < Split.numSplits base
  even : (input.denote M 0).shape.getD
    (normalAxis (input.denote M 0).shape.length base.secondInput) 0 = Split.numSplits base * size

/-- The parts, one behind the other along the axis of `SPLIT`. -/
def OperationsBase.rejoin (self : OperationsBase) (M : Meaning Element) (input : Node)
    (parts : List Node) : Tensor Element :=
  Tensor.concat (normalAxis (input.denote M 0).shape.length self.secondInput)
    (parts.map fun part => part.denote M 0)

/-- They are the input, converted to `u8`. -/
theorem SplitsInto.rejoin (hM : M.Computes conv) (hng : ng.Types M)
    (hsplits : M.Splits fun x => ∃ type, Typed type x)
    (htype : (self.getInputOperand 0).type = .tensorQuant8Asymm ∨
      (self.getInputOperand 0).type = .tensorQuant8AsymmSigned) {input : Node} {parts : List Node}
    {size : Nat} (h : SplitsInto ng nodes self input parts)
    (heven : SplitsEvenly M self input size) :
    self.rejoin M input parts = retyped .u8 (conv.apply .u8) (input.denote M 0) := by
  have haxis := normalAxis_lt heven.low heven.high
  have hparts : (parts.map fun part => part.denote M 0) =
      (List.range (Split.numSplits self)).map fun k =>
        (retyped .u8 (conv.apply .u8) (input.denote M 0)).slice
          (normalAxis (input.denote M 0).shape.length self.secondInput) (k * size) size := by
    apply List.ext_getElem
    · rw [List.length_map, List.length_map, List.length_range, h.length]
    · intro k hk hk'
      rw [List.length_map] at hk
      have hk'' : k < Split.numSplits self := h.length ▸ hk
      have hbinds := h.binds k hk
      obtain ⟨bound, hbound, hdenote⟩ :=
        ends_split hM htype h.input h.distinct () hbinds.1 k hk''
      cases hbound.symm.trans hbinds.2
      have hcut : (Split.node self input).denote M k = (input.denote M 0).slice
          (normalAxis (input.denote M 0).shape.length self.secondInput) (k * size) size := by
        have hconstant : self.secondNode.denote M 0 =
            M (.constant .i32 [] [.int self.secondInput]) [] 0 := rfl
        rw [Split.node, Node.denote_mk_two, hconstant]
        exact hsplits _ _ _ size k ⟨_, hng input⟩ heven.low heven.high heven.even hk''
      have hbound : k * size + size ≤ (input.denote M 0).shape.getD
          (normalAxis (input.denote M 0).shape.length self.secondInput) 0 := by
        rw [heven.even, ← Nat.succ_mul]
        exact Nat.mul_le_mul_right size hk''
      rw [List.getElem_map, List.getElem_map, List.getElem_range, hdenote, hcut]
      exact (Tensor.slice_map _ haxis hbound).symm
  rw [OperationsBase.rejoin, hparts]
  exact Tensor.concat_slices haxis heven.positive heven.even

/-- **Where quantized operands are emitted.**  The node bound to the operand holds its
integers in a type that represents the whole range exactly when the operand is not the
signed one of `QUANTIZE` or `SPLIT`; there a later `DequantizeNode` recovers the number
of an integer, and the parts of `SPLIT` give it back, exactly when it is not
negative. -/
theorem emitted_holds_iff (hM : M.Computes conv) (hng : ng.Types M)
    (hsplits : M.Splits fun x => ∃ type, Typed type x) :
    (∀ (emitter : Emitter) (index : Nat) (values : Tensor Element) (node : Node),
      (self.sModelInfo.getOperand index).Stores a →
      emitter.allows (self.sModelInfo.getOperand index).type = true →
      Emits M ng nodes self a emitter index values node →
      ∀ i, Inside values.shape i → ∀ q : Int, a.range.Contains q → (values.get i).value = q →
        (node.Holds M i a.range q ↔
          emitter.faithful (self.sModelInfo.getOperand index).type = true) ∧
        ∀ (consumer : OperationsBase) (later : NgraphNodes) (type : ElementType) (restored : Node),
          consumer.sModelInfo = self.sModelInfo →
          consumer.MakesRestored ng later index type node restored →
          (restored.valueAt M i = a.dequantize q ↔
            emitter.faithful (self.sModelInfo.getOperand index).type = true ∨ 0 ≤ q)) ∧
    ∀ (input : Node) (parts : List Node) (size : Nat) (range : IntRange),
      Emitter.split.allows (self.getInputOperand 0).type = true →
      (self.getInputOperand 0).type.affineRange = some range →
      SplitsInto ng nodes self input parts → SplitsEvenly M self input size →
      (self.rejoin M input parts).shape = (input.denote M 0).shape ∧
      ∀ i, input.HasIndex M i → ∀ q : Int, range.Contains q → input.valueAt M i = q →
        (((self.rejoin M input parts).get i).value = q ↔
          Emitter.split.faithful (self.getInputOperand 0).type = true ∨ 0 ≤ q) := by
  constructor
  · intro emitter index values node ho hallows hemits i hi q hq hvalue
    have hdenote := hemits.denote hM hng ho hallows
    refine ⟨Node.holds_iff hdenote hallows ho.range hi hvalue hq, ?_⟩
    intro consumer later type restored hsame hrestored
    have ho' : (consumer.sModelInfo.getOperand index).Stores a := hsame ▸ ho
    have hindex : node.HasIndex M i := by
      unfold Node.HasIndex
      rw [hdenote, shape_retyped]
      exact hi
    have hstored : node.valueAt M i =
        conv.apply (emitter.element (self.sModelInfo.getOperand index).type) q := by
      unfold Node.valueAt
      rw [hdenote, get_retyped hi, hvalue]
    have hback := (hrestored.valueAt hM hng ho' hindex).2
    rw [hback, hstored, Affine.dequantize, mul_left_inj' a.scale_pos.ne', sub_left_inj,
      Emitter.apply_element hallows ho.range hq]
  · intro input parts size range hallows hrange hrun heven
    have hrejoin := hrun.rejoin hM hng hsplits (of_decide_eq_true hallows) heven
    rw [hrejoin]
    refine ⟨rfl, ?_⟩
    intro i hi q hq hvalue
    have hentry : (retyped .u8 (conv.apply .u8) (input.denote M 0)).get i =
        ⟨.u8, conv.apply .u8 q⟩ := by
      rw [get_retyped hi]
      exact congrArg (fun v => (⟨.u8, conv.apply .u8 v⟩ : Element)) hvalue
    rw [hentry]
    exact Emitter.apply_element hallows hrange hq

end Nodes

/-! ### One quantized number -/

/-- A `QUANTIZE` of one number, with the scale one and the zero point one. -/
def oneQuantize (type : OperandType) : OperationsBase where
  sModelInfo :=
    { mModel :=
        { operands :=
            [{ type := .tensorFloat32, dimensions := [1], lifetime := .subgraphInput },
              { type := type, dimensions := [1], scale := 0x3f800000, zeroPoint := 1
                lifetime := .subgraphOutput }]
          operations := [{ type := .quantize, inputs := [0], outputs := [1] }]
          inputIndexes := [0]
          outputIndexes := [1] } }
  sPluginType := .cpu
  mNnapiOperationIndex := 0
  mDefaultOutputIndex := 1

/-- The number is the parameter at the input. -/
def quantizeNodes : NgraphNodes where
  mOutputAtOperandIndex _ := some (numberNode, 0)

theorem signedBytes_ordered : (-128 : Int) ≤ 127 := by decide

/-- How `TENSOR_QUANT8_ASYMM_SIGNED` stores numbers with them. -/
def signedAffine : Affine Rat where
  scale := 1
  zeroPoint := 1
  range := ⟨-128, 127, signedBytes_ordered⟩
  scale_pos := one_positive
  contains_zeroPoint := by decide

theorem oneQuantize_stores {type : OperandType} {a : Affine Rat}
    (hrange : type.affineRange = some a.range) (hscale : a.scale = 1) (hzero : a.zeroPoint = 1)
    (hsymmetric : type.symmetric = false) :
    ((oneQuantize type).sModelInfo.getOperand 1).Stores a where
  range := hrange
  scale := by
    have hone : FloatFormat.binary32.value 0x3f800000 = 1 := by
      norm_num [FloatFormat.value, FloatFormat.binary32]
    exact hone.trans hscale.symm
  zeroPoint := hzero.symm
  symmetric h := by
    have htrue : type.symmetric = true := h
    rw [hsymmetric] at htrue
    cases htrue

/-- `QUANTIZE` binds a node for the number. -/
theorem oneQuantize_emits {type : OperandType} {a : Affine Rat} (v : Rat)
    (ho : ((oneQuantize type).sModelInfo.getOperand 1).Stores a) :
    ∃ node, Binds (.exact (oneNumber v)) quantizeNodes (Quantize.createNode (oneQuantize type)) 1
        node ∧
      Emits (exact (oneNumber v)) (.exact (oneNumber v)) quantizeNodes (oneQuantize type) a
      .quantize 1 (((oneQuantize type).getOutputOperand 0).integers a
        (numberNode.denote (exact (oneNumber v)) 0)) node := by
  have hinput : (exec (answer (.exact (oneNumber v))) ((oneQuantize type).getInputNode 0)
      quantizeNodes).outcome = .ok numberNode := rfl
  have huses : Follows Cmd.access (Quantize.createNode (oneQuantize type))
      [.output 0, .set 1 true] := Quantize.createNode_uses
  have hstop : Access.stop ∉ [Access.output 0, .set 1 true] := by decide
  have hreturns : ∃ u, (exec (answer (.exact (oneNumber v)))
      (Quantize.createNode (oneQuantize type)) quantizeNodes).outcome = .ok u :=
    builds_of_follows huses hstop fun _ _ => rfl
  rcases hreturns with ⟨u, hu⟩
  obtain ⟨node, hbound, -⟩ := ends_quantize exact_computes Ngraph.exact_types ho hinput u hu
  exact ⟨node, ⟨hu, hbound⟩, .quantize hinput ⟨hu, hbound⟩⟩

/-- Its entry, where the quotient is an integer. -/
theorem oneQuantize_value {type : OperandType} {a : Affine Rat} {v : Rat} {q : Int}
    (hq : a.machineQuantize v = q) :
    (((((oneQuantize type).getOutputOperand 0).integers a
      (numberNode.denote (exact (oneNumber v)) 0)).get [0])).value = q := by
  obtain ⟨hindex, hvalue⟩ := numberNode_value v
  have hnumber : ((numberNode.denote (exact (oneNumber v)) 0).get [0]).value = v := hvalue
  rw [Operand.integers, get_retyped hindex, hnumber, hq]

/-- Three is held for two and a half. -/
theorem oneQuantize_holds :
    ∃ node, Binds (.exact (oneNumber (5 / 2))) quantizeNodes
        (Quantize.createNode (oneQuantize .tensorQuant8Asymm)) 1 node ∧
      node.Holds (exact (oneNumber (5 / 2))) [0] ⟨0, 255, by decide⟩ 3 := by
  have hstores : ((oneQuantize .tensorQuant8Asymm).sModelInfo.getOperand 1).Stores unitAffine :=
    oneQuantize_stores rfl rfl rfl rfl
  obtain ⟨node, hbinds, hemits⟩ := oneQuantize_emits (5 / 2) hstores
  have hround : roundHalfEven (5 / 2 / unitAffine.scale) = 2 := by
    norm_num [unitAffine, roundHalfEven]
  have hmachine : unitAffine.machineQuantize (5 / 2) = 3 := by
    unfold Affine.machineQuantize Affine.machineSum
    rw [hround]
    decide
  obtain ⟨hindex, -⟩ := numberNode_value (5 / 2)
  have hholds := ((emitted_holds_iff exact_computes Ngraph.exact_types exact_splits).1 _ _ _ _
    hstores rfl hemits [0] hindex 3 (by decide) (oneQuantize_value hmachine)).1
  exact ⟨node, hbinds, hholds.mpr rfl⟩

/-- Minus one is not held for minus two: `u8` has no negative integers. -/
theorem oneQuantize_loses :
    ¬ ∀ (self : OperationsBase) (a : Affine Rat) (M : Meaning Element) (conv : Conversion)
      (ng : Ngraph) (nodes : NgraphNodes) (emitter : Emitter) (index : Nat)
      (values : Tensor Element) (node : Node), M.Computes conv → ng.Types M →
      (self.sModelInfo.getOperand index).Stores a →
      emitter.allows (self.sModelInfo.getOperand index).type = true →
      Emits M ng nodes self a emitter index values node →
      ∀ i, Inside values.shape i → ∀ q : Int, a.range.Contains q → (values.get i).value = q →
        node.Holds M i a.range q := by
  intro hall
  have hstores : ((oneQuantize .tensorQuant8AsymmSigned).sModelInfo.getOperand 1).Stores
      signedAffine := oneQuantize_stores rfl rfl rfl rfl
  obtain ⟨node, -, hemits⟩ := oneQuantize_emits (-2) hstores
  have hround : roundHalfEven (-2 / signedAffine.scale) = -2 := by
    norm_num [signedAffine, roundHalfEven]
  have hmachine : signedAffine.machineQuantize (-2) = -1 := by
    unfold Affine.machineQuantize Affine.machineSum
    rw [hround]
    decide
  obtain ⟨hindex, -⟩ := numberNode_value (-2)
  have hvalue : ((((oneQuantize .tensorQuant8AsymmSigned).getOutputOperand 0).integers signedAffine
      (numberNode.denote (exact (oneNumber (-2))) 0)).get [0]).value = (-1 : Int) :=
    oneQuantize_value hmachine
  have hholds := hall _ _ _ _ _ _ _ _ _ _ exact_computes Ngraph.exact_types hstores rfl hemits [0]
    hindex (-1) (by decide) hvalue
  have hdenote := hemits.denote exact_computes Ngraph.exact_types hstores rfl
  have hfaithful := (Node.holds_iff hdenote rfl hstores.range hindex hvalue (by decide)).mp hholds
  cases hfaithful

end NnHal
