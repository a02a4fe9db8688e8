import NnHal.OperationsBase

/-!
# What an operation touches

The safety of graph construction depends on a few of the commands an operation
issues: the constants it reads, the entries of the node table it looks up, the
names it asks for, the outputs it binds, and the points where it stops.
`Cmd.access` picks them.

An operation is described by the list of its `Use`s, in the words of its
signature: input 0 is used as a node, input 2 is read as a scalar.  `Uses`
says that the program does exactly what the list says, in this order, whatever
ngraph answers; its rules are applied in the order in which the program is
written.
-/

namespace NnHal

open Command

/-- One touch of the model's constants or of the node table. -/
inductive Access
  | read (operand : Nat)
  | output (index : Nat)
  | null (operand : Nat)
  | nullRead (operand : Nat)
  | name (index : Nat)
  | invalidate (index : Nat)
  | set (index : Nat) (bound : Bool)
  | stop
  deriving DecidableEq, Repr

/-- The touches among the commands. -/
def Cmd.access : Cmd → Option Access
  | .readOperand operand => some (.read operand)
  | .getOperationOutput index => some (.output index)
  | .removeInputNode index => some (.name index)
  | .setInvalidNode index => some (.invalidate index)
  | .setOutputAtOperandIndex index output => some (.set index output.isSome)
  | .nullConstant operand => some (.null operand)
  | .fault (.nullBuffer operand) => some (.nullRead operand)
  | .abort | .throwException => some .stop
  | _ => none

/-- A use an operation makes of its operands. -/
inductive Use
  /-- `getInputNode` of an input -/
  | node (input : Nat) (dequantize : Bool := true)
  /-- the entry of the node table at an input, without `getInputNode` -/
  | rawOutput (input : Nat)
  /-- `removeInputNode` of an input -/
  | remove (input : Nat)
  /-- `ParseOperationInput<T>` of an input -/
  | scalar (T : CType) (input : Nat)
  /-- `GetConstVecOperand<T>` of an input -/
  | vector (T : CType) (input : Nat)
  /-- `DequantizeNode` with the parameters of an operand -/
  | dequantize (operand : Nat)
  /-- the per-channel parameters of an input -/
  | channelQuant (input : Nat)
  /-- an output bound to a node, or to the null pointer -/
  | set (operand : Nat) (bound : Bool := true)
  deriving DecidableEq, Repr

namespace NnapiModelInfo

variable (info : NnapiModelInfo)

/-- `GetOperandMemory`. -/
def memoryAccesses (operand : Nat) : List Access :=
  .read operand ::
    match (info.getOperand operand).lifetime with
    | .constantCopy =>
        if (info.getOperand operand).location.poolIndex = 0 then [] else [.stop]
    | .subgraph => [.stop]
    | _ => []

/-- The read through the pointer, where there is something to read. -/
def bufferAccesses (operand : Nat) (empty : Bool) : List Access :=
  if (info.operandBuffer operand).isSome || empty then [] else [.nullRead operand]

/-- A scalar read stops when the length is not that of the type. -/
def scalarAccesses (T : CType) (operand : Nat) : List Access :=
  info.memoryAccesses operand ++
    if info.operandLength operand = T.size then info.bufferAccesses operand false else [.stop]

/-- A vector read stops when the length is no multiple of the type's. -/
def vectorAccesses (T : CType) (operand : Nat) : List Access :=
  info.memoryAccesses operand ++
    if info.operandLength operand / T.size * T.size = info.operandLength operand then
      info.bufferAccesses operand (info.operandLength operand / T.size = 0)
    else [.stop]

end NnapiModelInfo

namespace OperationsBase

variable (self : OperationsBase)

/-- The per-channel parameters of an operand that has none stop the program. -/
def channelQuantAccesses (operand : Operand) : List Access :=
  match operand.channelQuant with
  | some _ => []
  | none => [.stop]

/-- `DequantizeNode` stops on a per-channel operand without parameters, and on
one whose channel lies beyond the rank of input 0. -/
def dequantizeAccesses (operand : Nat) : List Access :=
  if self.sModelInfo.getOperandType operand = .tensorQuant8SymmPerChannel then
    match (self.sModelInfo.getOperand operand).channelQuant with
    | some params =>
        if (self.getInputOperandDimensions 0).length < params.channelDim then [.stop] else []
    | none => [.stop]
  else []

/-- `getInputNode`. -/
def nodeAccesses (input : Nat) (dequantize : Bool) : List Access :=
  let operand := self.inputIndex input
  let type := self.sModelInfo.getOperandType operand
  let dequantized :=
    if dequantize && type.isQuantized then self.dequantizeAccesses operand else []
  if self.sModelInfo.isOperandLifeTimeConst operand then
    match type.constElement with
    | none => [.null operand]
    | some (_, T) => self.sModelInfo.vectorAccesses T operand ++ dequantized
  else .output operand :: dequantized

/-- The touches a use consists of. -/
def accesses : Use → List Access
  | .node input dequantize => self.nodeAccesses input dequantize
  | .rawOutput input => [.output (self.inputIndex input)]
  | .remove input => [.name (self.inputIndex input)]
  | .scalar T input => self.sModelInfo.scalarAccesses T (self.inputIndex input)
  | .vector T input => self.sModelInfo.vectorAccesses T (self.inputIndex input)
  | .dequantize operand => self.dequantizeAccesses operand
  | .channelQuant input => channelQuantAccesses (self.getInputOperand input)
  | .set operand bound => [.set operand bound]

end OperationsBase

/-! ## Programs that touch nothing -/

section Quiet

/-- A fault is no access, but for the ones that are. -/
theorem quiet_fault {f : Fault} (hf : (Cmd.fault f).access = none) :
    Quiet Cmd.access (fault f) := quiet_perform hf

theorem quiet_faultIf {b : Bool} {f : Fault} (hf : (Cmd.fault f).access = none) :
    Quiet Cmd.access (faultIf b f) := by
  unfold faultIf
  exact quiet_ite (quiet_fault hf) (quiet_pure _)

/-- A node is made of nodes. -/
theorem quiet_make {op : NodeOp} {args : List Output} :
    Quiet Cmd.access (makeShared op args) := quiet_perform rfl

theorem quiet_getElementType {node : Node} :
    Quiet Cmd.access (issue (.getElementType node)) := quiet_perform rfl

/-- ngraph is asked, not the model. -/
theorem quiet_getShape {node : Node} :
    Quiet Cmd.access (issue (.getShape node)) := quiet_perform rfl

theorem quiet_setResultNode {index : Nat} {node : NodePtr} :
    Quiet Cmd.access (issue (.setResultNode index node)) := quiet_perform rfl

/-- A constant of the code's own. -/
theorem quiet_const {type : ElementType} {shape : List Nat} {vals : List Scalar} :
    Quiet Cmd.access (createConstNode type shape vals) := quiet_make

/-- A null pointer that is followed here is no entry of the table. -/
theorem quiet_deref {node : NodePtr} : Quiet Cmd.access (deref node) := by
  cases node with
  | none => exact (quiet_fault rfl).bind fun _ => quiet_pure _
  | some n => exact quiet_pure n

theorem quiet_dimAt {dims : List Nat} {i : Nat} : Quiet Cmd.access (dimAt dims i) := by
  unfold dimAt
  cases dims[i]? with
  | none => exact (quiet_fault rfl).bind fun _ => quiet_pure _
  | some d => exact quiet_pure d

theorem quiet_elementAt {α : Type} [Inhabited α] {v : List α} {i : Nat} :
    Quiet Cmd.access (elementAt v i) := by
  unfold elementAt
  cases v[i]? with
  | none => exact (quiet_fault rfl).bind fun _ => quiet_pure _
  | some x => exact quiet_pure x

/-- The element, or a default where there is none. -/
theorem yields_elementAt {α : Type} [Inhabited α] (v : List α) (i : Nat) :
    Yields (fun x => x = v.getD i default) (elementAt v i) := by
  unfold elementAt
  cases hi : v[i]? with
  | none => exact (yields_true _).bind fun _ _ => by simp [hi, Yields]
  | some x => simp [hi, Yields]

theorem quiet_shapeAt {node : Node} {i : Nat} : Quiet Cmd.access (shapeAt node i) := by
  apply quiet_getShape.bind
  intro shape
  cases shape[i]? with
  | none => exact (quiet_fault rfl).bind fun _ => quiet_pure _
  | some d => exact quiet_pure d

theorem quiet_divInt {a b : Int} : Quiet Cmd.access (divInt a b) :=
  (quiet_faultIf rfl).bind fun _ => quiet_pure _

theorem quiet_readLocal {α : Type} [Inhabited α] {x : Option α} :
    Quiet Cmd.access (readLocal x) := by
  cases x with
  | none => exact (quiet_fault rfl).bind fun _ => quiet_pure _
  | some v => exact quiet_pure v

/-- The order of the axes is the code's own. -/
theorem quiet_transpose {type : ConversionType} {input : Output} :
    Quiet Cmd.access (transpose type input) :=
  quiet_make.bind fun _ => quiet_make

/-- The bounds of the clamps are. -/
theorem quiet_applyActivation {node : Node} {activationFn : Int} :
    Quiet Cmd.access (applyActivation node activationFn) := by
  unfold applyActivation
  refine quiet_ite (quiet_pure _) (quiet_ite quiet_make ?_)
  exact quiet_ite quiet_make (quiet_ite quiet_make (quiet_pure _))

/-- Paddings are computed from what was read. -/
theorem quiet_calculateExplicitPadding {inSize stride filterSize implicit : Int} :
    Quiet Cmd.access (calculateExplicitPadding inSize stride filterSize implicit) := by
  unfold calculateExplicitPadding
  refine quiet_ite (quiet_divInt.bind fun _ => ?_) (quiet_pure _)
  exact quiet_ite (quiet_pure _) (quiet_pure _)

/-- Registering a result is no access to an operand. -/
theorem quiet_addModelOutput {self : OperationsBase} {index : Nat} {node : NodePtr} :
    Quiet Cmd.access (self.addModelOutput index node) := by
  unfold OperationsBase.addModelOutput
  exact quiet_ite quiet_setResultNode (quiet_pure _)

/-- The list of operations is not the operands. -/
theorem quiet_getOperationType {info : NnapiModelInfo} {index : Nat} :
    Quiet Cmd.access (info.getOperationType index) := by
  unfold NnapiModelInfo.getOperationType
  cases info.mModel.operations[index]? with
  | none => exact (quiet_fault rfl).bind fun _ => quiet_pure _
  | some operation => exact quiet_pure _

/-- The scale and the zero point are not in the buffers. -/
theorem quiet_quantizeNode {self : OperationsBase} {input : Node} {index : Nat}
    {type : ElementType} : Quiet Cmd.access (self.quantizeNode input index type) := by
  refine quiet_const.bind fun _ => quiet_const.bind fun _ => ?_
  refine quiet_getElementType.bind fun _ => ?_
  refine (quiet_ite quiet_make (quiet_pure _)).bind fun _ => ?_
  refine quiet_make.bind fun _ => quiet_make.bind fun _ => quiet_make.bind fun _ => ?_
  refine quiet_make.bind fun _ => Quiet.bind ?_ fun _ => ?_
  · split <;> first | exact quiet_make | exact quiet_deref
  · exact quiet_getElementType.bind fun _ => quiet_ite quiet_make (quiet_pure _)

end Quiet

/-! ## The touches of the shared helpers -/

section Follows

variable {info : NnapiModelInfo} {self : OperationsBase}

/-- Nothing is accessed after an assertion that fails. -/
theorem follows_nnAssert {P : Prop} {_ : Decidable P} {β : Type} {f : Unit → Gen β}
    {us : List Access} (hf : Follows Cmd.access (f ()) us) :
    Follows Cmd.access (nnAssert P >>= f) (if P then us else [.stop]) := by
  unfold nnAssert
  by_cases hP : P
  · simpa [hP] using hf
  · simp only [hP, decide_false, Bool.false_eq_true, if_false]
    rw [bind_assoc]
    exact follows_perform_bind rfl fun never => nomatch never

/-- One read, and the fault of a pool that is not there. -/
theorem follows_getOperandMemory (index : Nat) :
    Follows Cmd.access (info.getOperandMemory index) (info.memoryAccesses index) := by
  refine follows_perform_bind rfl fun _ => ?_
  cases hl : (info.getOperand index).lifetime <;> simp only [hl]
  case constantCopy => exact follows_nnAssert (quiet_pure _)
  case constantReference =>
    cases info.mPoolInfos[(info.getOperand index).location.poolIndex]? with
    | none => exact (quiet_fault rfl).bind fun _ => quiet_pure _
    | some buffer => exact quiet_pure _
  case subgraph => exact @follows_nnAssert False _ _ _ _ (quiet_pure _)
  all_goals exact quiet_pure _

/-- A null buffer is followed. -/
theorem follows_getConstFromBuffer (T : CType) (index : Nat) (len : Nat) :
    Follows Cmd.access
      (NnapiModelInfo.getConstFromBuffer T index (info.operandBuffer index) len)
      (if len = T.size then info.bufferAccesses index false else [.stop]) := by
  refine follows_nnAssert ?_
  unfold NnapiModelInfo.bufferAccesses
  cases info.operandBuffer index with
  | none => exact follows_perform_bind rfl fun _ => quiet_pure _
  | some bytes => exact quiet_pure _

/-- It is followed where there is something to read. -/
theorem follows_getConstVecFromBuffer (T : CType) (index : Nat) (len : Nat) :
    Follows Cmd.access
      (NnapiModelInfo.getConstVecFromBuffer T index (info.operandBuffer index) len)
      (if len / T.size * T.size = len then info.bufferAccesses index (len / T.size = 0)
        else [.stop]) := by
  refine follows_nnAssert ?_
  unfold NnapiModelInfo.bufferAccesses faultIf
  cases info.operandBuffer index with
  | none =>
      by_cases hn : len / T.size = 0
      · simp [hn]
      · simp only [hn, ne_eq, not_false_eq_true, decide_true, if_true, Option.isSome_none,
          decide_false, Bool.or_self, Bool.false_eq_true, if_false]
        exact follows_perform_bind rfl fun _ => quiet_pure _
  | some bytes => exact quiet_pure _

/-- The accesses of a scalar. -/
theorem follows_getConstOperand (T : CType) (index : Nat) :
    Follows Cmd.access (info.getConstOperand T index) (info.scalarAccesses T index) := by
  refine (follows_getOperandMemory index).bind_yields
    (NnapiModelInfo.yields_getOperandMemory index) fun m hm => ?_
  subst hm
  exact follows_getConstFromBuffer T index _

/-- The accesses of a vector. -/
theorem follows_getConstVecOperand (T : CType) (index : Nat) :
    Follows Cmd.access (info.getConstVecOperand T index) (info.vectorAccesses T index) := by
  refine (follows_getOperandMemory index).bind_yields
    (NnapiModelInfo.yields_getOperandMemory index) fun m hm => ?_
  subst hm
  exact follows_getConstVecFromBuffer T index _

/-- An assertion stops an operand without parameters of its channels. -/
theorem follows_channelQuant (operand : Operand) :
    Follows Cmd.access (OperationsBase.channelQuant operand)
      (OperationsBase.channelQuantAccesses operand) := by
  unfold OperationsBase.channelQuant OperationsBase.channelQuantAccesses
  cases operand.channelQuant with
  | none => exact follows_perform_bind rfl fun never => nomatch never
  | some params => exact quiet_pure params

/-- A channel past the rank is a fault. -/
theorem follows_channelScaleNode (operand : Operand) :
    Follows Cmd.access (self.channelScaleNode operand)
      (match operand.channelQuant with
        | some params =>
            if (self.getInputOperandDimensions 0).length < params.channelDim then [.stop] else []
        | none => [.stop]) := by
  unfold OperationsBase.channelScaleNode OperationsBase.channelQuant
  cases operand.channelQuant with
  | none =>
      rw [bind_assoc]
      exact follows_perform_bind rfl fun never => nomatch never
  | some params =>
      refine follows_ite (fun _ => ?_) fun _ => ?_
      · exact follows_perform_bind rfl fun never => nomatch never
      · exact (quiet_faultIf rfl).bind fun _ => quiet_const

/-- Dequantizing an operand accesses the parameters of its channels. -/
theorem follows_dequantizeNode (input : Node) (index : Nat) (type : ElementType) :
    Follows Cmd.access (self.dequantizeNode input index type)
      (self.dequantizeAccesses index) := by
  refine quiet_getElementType.bind fun _ => ?_
  refine (quiet_ite quiet_make (quiet_pure _)).bind fun _ => ?_
  have hlast : ∀ node : Node, Quiet Cmd.access
      (if type = .f16 then makeShared (.convert type) [node] else pure node) :=
    fun node => quiet_ite quiet_make (quiet_pure _)
  refine (follows_ite (fun _ => ?_) fun _ => ?_).bind_quiet hlast
  · exact (follows_channelScaleNode _).bind_quiet fun _ => quiet_make
  · refine quiet_const.bind fun _ => quiet_const.bind fun _ => ?_
    exact (quiet_ite quiet_make (quiet_pure _)).bind fun _ => quiet_make

/-- A constant is read, another operand is looked up. -/
theorem follows_getInputNode (input : Nat) (dequantize : Bool) :
    Follows Cmd.access (self.getInputNode input dequantize)
      (self.nodeAccesses input dequantize) := by
  have hdequantize : ∀ node : Node, Follows Cmd.access
      (if (dequantize &&
          (self.sModelInfo.getOperandType (self.inputIndex input)).isQuantized) = true
        then self.dequantizeNode node (self.inputIndex input) .f32
        else pure node)
      (if (dequantize &&
          (self.sModelInfo.getOperandType (self.inputIndex input)).isQuantized) = true
        then self.dequantizeAccesses (self.inputIndex input) else []) :=
    fun node => follows_ite (fun _ => follows_dequantizeNode _ _ _) fun _ => quiet_pure _
  refine follows_ite (fun _ => ?_) fun _ => ?_
  · cases (self.sModelInfo.getOperandType (self.inputIndex input)).constElement with
    | none => exact follows_perform_bind rfl fun _ => quiet_pure _
    | some element =>
        apply (follows_getConstVecOperand ..).bind
        intro _
        apply quiet_const.bind
        intro node
        exact hdequantize node
  · exact follows_perform_bind rfl fun output => hdequantize output.1

end Follows

/-! ## The uses of an operation -/

/-- The program makes exactly these uses of the operands, in this order. -/
def Uses (self : OperationsBase) {α : Type} (p : Gen α) (us : List Use) : Prop :=
  Follows Cmd.access p (us.flatMap self.accesses)

namespace Uses

variable {self : OperationsBase} {α β : Type} {f : α → Gen β} {us vs : List Use}

/-- Nothing is used. -/
theorem pure (a : α) : Uses self (Pure.pure a) [] := quiet_pure a

/-- What is no access is no use. -/
theorem quiet {p : Gen α} (hp : Quiet Cmd.access p) : Uses self p [] := hp

/-- The uses of a sequence are those of its halves. -/
theorem bind {p : Gen α} (hp : Uses self p us) (hf : ∀ a, Uses self (f a) vs) :
    Uses self (p >>= f) (us ++ vs) := by
  unfold Uses at *
  rw [List.flatMap_append]
  exact Follows.bind hp hf

/-- A step that touches nothing. -/
theorem step {p : Gen α} (hp : Quiet Cmd.access p) (hf : ∀ a, Uses self (f a) us) :
    Uses self (p >>= f) us :=
  Quiet.bind hp hf

/-- The uses of a choice are chosen alike. -/
theorem ite {b : Prop} {_ : Decidable b} {p q : Gen α} (hp : b → Uses self p us)
    (hq : ¬b → Uses self q vs) :
    Uses self (if b then p else q) (if b then us else vs) := by
  split <;> simp_all

/-- Past a node that is made. -/
theorem make {op : NodeOp} {args : List Output} {f : Node → Gen β}
    (hf : ∀ n, Uses self (f n) us) : Uses self (makeShared op args >>= f) us :=
  step quiet_make hf

theorem const {type : ElementType} {shape : List Nat} {vals : List Scalar}
    {f : Node → Gen β} (hf : ∀ n, Uses self (f n) us) :
    Uses self (createConstNode type shape vals >>= f) us :=
  step quiet_const hf

/-- One use at the head of the program. -/
theorem cons {p : Gen α} {u : Use} (hp : Follows Cmd.access p (self.accesses u))
    (hf : ∀ a, Uses self (f a) us) : Uses self (p >>= f) (u :: us) :=
  Follows.bind hp hf

/-- Past an input that is fetched. -/
theorem node {input : Nat} {dequantize : Bool} {f : Node → Gen β}
    (hf : ∀ n, Uses self (f n) us) :
    Uses self (self.getInputNode input dequantize >>= f) (.node input dequantize :: us) :=
  cons (follows_getInputNode input dequantize) hf

/-- Past a scalar that is read. -/
theorem scalar {T : CType} {input : Nat} {f : Int → Gen β}
    (hf : ∀ v, Uses self (f v) us) :
    Uses self (self.parseOperationInput T input >>= f) (.scalar T input :: us) :=
  cons (follows_getConstOperand T _) hf

/-- A scalar whose value the rest of the program branches on. -/
theorem scalarValue {T : CType} {input : Nat} {f : Int → Gen β}
    (hf : Uses self (f (self.sModelInfo.scalarValue T (self.inputIndex input))) us) :
    Uses self (self.parseOperationInput T input >>= f) (.scalar T input :: us) :=
  (follows_getConstOperand T _).bind_yields (NnapiModelInfo.yields_getConstOperand T _)
    fun _ hv => hv ▸ hf

/-- Past a vector. -/
theorem vector {T : CType} {input : Nat} {f : List Int → Gen β}
    (hf : ∀ v, Uses self (f v) us) :
    Uses self (self.getConstVecInput T input >>= f) (.vector T input :: us) :=
  cons (follows_getConstVecOperand T _) hf

/-- Past an entry that is looked up as it is. -/
theorem rawOutput {input : Nat} {f : Output → Gen β} (hf : ∀ o, Uses self (f o) us) :
    Uses self (issue (.getOperationOutput (self.inputIndex input)) >>= f)
      (.rawOutput input :: us) :=
  cons (follows_perform rfl) hf

/-- Past a Parameter that is removed. -/
theorem remove {input : Nat} {f : Unit → Gen β} (hf : ∀ u, Uses self (f u) us) :
    Uses self (self.removeInputNode input >>= f) (.remove input :: us) :=
  cons (follows_perform rfl) hf

theorem set {index : Nat} {outNode : NodePtr} {f : Unit → Gen β}
    (hf : ∀ u, Uses self (f u) us) :
    Uses self (self.setOperationOutput index outNode >>= f)
      (.set index outNode.isSome :: us) :=
  cons (follows_perform_bind (by simp [Cmd.access]) fun _ => quiet_addModelOutput) hf

/-- One use and nothing else. -/
theorem one {p : Gen α} {u : Use} (hp : Follows Cmd.access p (self.accesses u)) :
    Uses self p [u] := by
  simpa [Uses] using hp

theorem dequantized {input : Node} {index : Nat} {type : ElementType} :
    Uses self (self.dequantizeNode input index type) [.dequantize index] :=
  one (follows_dequantizeNode input index type)

theorem assigned {index : Nat} {outNode : NodePtr} :
    Uses self (self.setOperationOutput index outNode) [.set index outNode.isSome] :=
  one (follows_perform_bind (by simp [Cmd.access]) fun _ => quiet_addModelOutput)

theorem bound {index : Nat} {outNode : Node} :
    Uses self (self.setOperationOutput index (some outNode)) [.set index] :=
  assigned

/-- An output that is made by a conversion, where there is one. -/
theorem converted {index : Nat} {outNode : Option (Gen Node)}
    (hquiet : ∀ p ∈ outNode, Quiet Cmd.access p) :
    Uses self (self.setConverted index outNode) [.set index outNode.isSome] := by
  cases outNode with
  | none => exact assigned
  | some convert => exact .step (hquiet _ rfl) fun _ => .bound

theorem removed {input : Nat} : Uses self (self.removeInputNode input) [.remove input] :=
  one (follows_perform rfl)

/-- A constructor at the end of the program. -/
theorem bindMake {p : Gen α} {op : α → NodeOp} {args : α → List Output}
    (hp : Uses self p us) : Uses self (p >>= fun a => makeShared (op a) (args a)) us :=
  Follows.bind_quiet hp fun _ => quiet_make

/-- A step that touches nothing and whose result the rest depends on. -/
theorem step_yields {p : Gen α} {Q : α → Prop} (hp : Quiet Cmd.access p)
    (hy : Yields Q p) (hf : ∀ a, Q a → Uses self (f a) us) : Uses self (p >>= f) us :=
  Follows.bind_yields hp hy hf

/-- A loop uses what its rounds do. -/
theorem mapM {ι : Type} {f : ι → Gen α} {g : ι → List Use}
    (h : ∀ i, Uses self (f i) (g i)) (l : List ι) :
    Uses self (l.mapM f) (l.flatMap g) := by
  unfold Uses
  rw [List.flatMap_assoc]
  exact Follows.mapM fun i _ => h i

theorem forM {ι : Type} {f : ι → Gen PUnit} {g : ι → List Use}
    (h : ∀ i, Uses self (f i) (g i)) (l : List ι) :
    Uses self (ForM.forM l f) (l.flatMap g) := by
  unfold Uses
  rw [List.flatMap_assoc]
  exact Follows.forM h l

end Uses

theorem uses_getInputNode {self : OperationsBase} {input : Nat} {dequantize : Bool} :
    Uses self (self.getInputNode input dequantize) [.node input dequantize] :=
  .one (follows_getInputNode input dequantize)

theorem uses_parseOperationInput {self : OperationsBase} {T : CType} {input : Nat} :
    Uses self (self.parseOperationInput T input) [.scalar T input] :=
  .one (follows_getConstOperand T _)

/-- The default connection binds the operation's output after the uses of its
`createNode`. -/
theorem uses_connectDefault {self : OperationsBase} {p : Gen Node} {us : List Use}
    (hp : Uses self p us) :
    Uses self (self.connectDefault p) (us ++ [.set self.mDefaultOutputIndex]) := by
  refine hp.bind fun node => Uses.step ?_ fun node => ?_
  · split <;> first | exact quiet_quantizeNode | exact quiet_pure _
  · exact Uses.step quiet_addModelOutput fun _ => follows_perform rfl

end NnHal
