import Mathlib.Algebra.Order.Floor.Ring
import NnHal.Convolving
import NnHal.OperandAccess
import NnHal.ReadingRuns
import NnHal.Slicing

/-!
# What a graph computes

ngraph's operations are functions of their input tensors and attributes: a
`Meaning` is that function, and it gives every node of a graph a tensor for
each of its outputs.  Arithmetic is exact, over any ordered ring.

What a statement needs to know about an operation is a named premise on the
meaning, as ngraph documents it; nothing else is known of it.  `reference` is
a meaning that satisfies all of them.
-/

namespace NnHal

open Command Tensors

/-- The tensor at an output of an operation, from its input tensors. -/
abbrev Meaning (R : Type) [Zero R] := NodeOp → List (Tensor R) → Nat → Tensor R

section Denote

variable {R : Type} [Zero R]

mutual

/-- The tensor at an output of a node. -/
def Node.denote (M : Meaning R) : Node → Nat → Tensor R
  | .mk op args, index => M op (Node.denoteAll M args) index

/-- The tensors a node is given. -/
def Node.denoteAll (M : Meaning R) : List (Node × Nat) → List (Tensor R)
  | [] => []
  | output :: rest => Node.denoteOutput M output :: Node.denoteAll M rest

def Node.denoteOutput (M : Meaning R) : Node × Nat → Tensor R
  | (node, index) => node.denote M index

end

theorem Node.denote_mk_one (M : Meaning R) (op : NodeOp) (output : Output) (index : Nat) :
    (Node.mk op [output]).denote M index = M op [output.1.denote M output.2] index := by
  rcases output with ⟨node, i⟩
  simp only [Node.denote, Node.denoteAll, Node.denoteOutput]

theorem Node.denote_mk_two (M : Meaning R) (op : NodeOp) (output output' : Output) (index : Nat) :
    (Node.mk op [output, output']).denote M index =
      M op [output.1.denote M output.2, output'.1.denote M output'.2] index := by
  rcases output with ⟨node, i⟩
  rcases output' with ⟨node', j⟩
  simp only [Node.denote, Node.denoteAll, Node.denoteOutput]

/-- ngraph's shape inference agrees with the tensors. -/
def Ngraph.Infers (ng : Ngraph) (M : Meaning R) : Prop :=
  ∀ node, ng.getShape node = (node.denote M 0).shape

end Denote

/-! ## The documented operations -/

/-- The window of a convolution along a spatial axis: explicit paddings are
taken as given, the other schemes compute them again. -/
def ConvAttrs.window (attrs : ConvAttrs) (axis size filter : Nat) : Window :=
  let stride := attrs.strides.getD axis 1
  let dilation := attrs.dilations.getD axis 1
  match attrs.autoPad with
  | .sameUpper => Window.same stride dilation size filter
  | .valid => Window.valid stride dilation
  | .explicit | .notset =>
      { stride, dilation
        padHead := attrs.padsBegin.getD axis 0
        padTail := attrs.padsEnd.getD axis 0 }

/-- An axis counted from the end when it is negative. -/
def normalAxis (rank : Nat) (axis : Int) : Nat := (if axis < 0 then axis + rank else axis).toNat

theorem normalAxis_lt {rank : Nat} {axis : Int} (hlow : -rank ≤ axis) (hhigh : axis < rank) :
    normalAxis rank axis < rank := by
  unfold normalAxis
  split <;> omega

namespace Meaning

/-- `Split` cuts an axis of a tensor into parts of one size. -/
def Splits {R : Type} [Zero R] (M : Meaning R) (proper : Tensor R → Prop) : Prop :=
  ∀ (x : Tensor R) (axis : Int) (numSplits size k : Nat), proper x →
    -x.shape.length ≤ axis → axis < x.shape.length →
    x.shape.getD (normalAxis x.shape.length axis) 0 = numSplits * size → k < numSplits →
    M (.split numSplits) [x, M (.constant .i32 [] [.int axis]) [] 0] k =
      x.slice (normalAxis x.shape.length axis) (k * size) size

section Layout

variable {R : Type} [Ring R]

/-- Constants hold the integers they are built from, and `Transpose` permutes
the axes by its order. -/
structure Transposes (M : Meaning R) : Prop where
  constant : ∀ (type : ElementType) (values : List Int),
    M (.constant type [values.length] (values.map .int)) [] 0 =
      Tensor.ofList (values.map fun (v : Int) => (v : R))
  transpose : ∀ (x : Tensor R) (order : List Nat), IsOrder order x.shape.length →
    M .transpose [x, Tensor.ofList (order.map fun (a : Nat) => (a : R))] 0 = x.transpose order

/-- A constant without axes is one entry; `Convert` works entry by entry,
`Subtract` and `Multiply` on the entries that broadcasting pairs. -/
structure Elementwise (M : Meaning R) : Prop where
  scalar : ∀ type v, (M (.constant type [] [v]) [] 0).shape = []
  convert : ∀ type, ∃ f : R → R, ∀ x, M (.convert type) [x] 0 = x.map f
  subtract : ∀ x y, M .subtract [x, y] 0 = Tensor.broadcast (· - ·) x y
  multiply : ∀ x y, M .multiply [x, y] 0 = Tensor.broadcast (· * ·) x y

end Layout

section Arithmetic

variable {R : Type} [CommRing R] [LinearOrder R]

/-- `Reshape` keeps the row-major order, `Add` broadcasts, and the activations
work entry by entry. -/
structure AddsBias (M : Meaning R) : Prop where
  reshape : ∀ (x : Tensor R) (target : List Nat),
    M (.reshape true) [x, Tensor.ofList (target.map fun (d : Nat) => (d : R))] 0 =
      x.reshape (Tensor.specialZero x.shape target)
  add : ∀ x y, M .add [x, y] 0 = Tensor.broadcast (· + ·) x y
  relu : ∀ x, M .relu [x] 0 = x.map fun v => max v 0
  clamp : ∀ (x : Tensor R) (low high : Int),
    M (.clamp (.int low) (.int high)) [x] 0 = x.map fun v => min (max v (low : R)) (high : R)

/-- `Convolution` is the cross-correlation of an NCHW input and an OIHW
filter. -/
def Convolves (M : Meaning R) : Prop :=
  ∀ (attrs : ConvAttrs) (x f : Tensor R) {n cx h w o c fh fw : Nat},
    x.shape = [n, cx, h, w] → f.shape = [o, c, fh, fw] →
    M (.convolution attrs) [x, f] 0 =
      Tensor.convolve (attrs.window 0 h fh) (attrs.window 1 w fw) x f

/-- `GroupConvolution` takes its groups as the first axis of the filter. -/
def GroupConvolves (M : Meaning R) : Prop :=
  ∀ (attrs : ConvAttrs) (x f : Tensor R) {n cx h w g o c fh fw : Nat},
    x.shape = [n, cx, h, w] → f.shape = [g, o, c, fh, fw] →
    M (.groupConvolution attrs) [x, f] 0 =
      Tensor.groupConvolve (attrs.window 0 h fh) (attrs.window 1 w fw) x f

end Arithmetic

end Meaning

/-! ### A meaning with all of them -/

/-- The integer a constant is built from. -/
def Scalar.integer : Scalar → Int
  | .int v => v
  | _ => 0

section Reference

variable {R : Type} [CommRing R] [LinearOrder R] [FloorRing R]

/-- The numbers a tensor of rank one holds, as sizes or axes. -/
def naturals (x : Tensor R) : List Nat :=
  (List.range (x.shape.getD 0 0)).map fun (k : Nat) => ⌊x.get [(k : Int)]⌋.toNat

/-- A meaning of the operations a convolution is built from; parameters hold
the given tensors. -/
def reference (inputs : Nat → Tensor R) : Meaning R
  | .parameter operand _ _, [], _ => inputs operand
  | .constant _ shape values, [], _ =>
      Tensor.ofFn shape fun index =>
        (values.getD (flat shape index).toNat (.int 0)).integer
  | .transpose, [x, order], _ => x.transpose (naturals order)
  | .reshape true, [x, target], _ => x.reshape (Tensor.specialZero x.shape (naturals target))
  | .add, [x, y], _ => Tensor.broadcast (· + ·) x y
  | .subtract, [x, y], _ => Tensor.broadcast (· - ·) x y
  | .multiply, [x, y], _ => Tensor.broadcast (· * ·) x y
  | .convert _, [x], _ => x.map id
  | .relu, [x], _ => x.map fun v => max v 0
  | .clamp low high, [x], _ => x.map fun v => min (max v (low.integer : R)) (high.integer : R)
  | .convolution attrs, [x, f], _ =>
      Tensor.convolve (attrs.window 0 (x.shape.getD 2 0) (f.shape.getD 2 0))
        (attrs.window 1 (x.shape.getD 3 0) (f.shape.getD 3 0)) x f
  | .groupConvolution attrs, [x, f], _ =>
      Tensor.groupConvolve (attrs.window 0 (x.shape.getD 2 0) (f.shape.getD 3 0))
        (attrs.window 1 (x.shape.getD 3 0) (f.shape.getD 4 0)) x f
  | _, _, _ => default

variable {inputs : Nat → Tensor R}

theorem reference_constant (type : ElementType) (values : List Int) :
    reference inputs (.constant type [values.length] (values.map .int)) [] 0 =
      Tensor.ofList (values.map fun (v : Int) => (v : R)) := by
  apply Tensor.ofFn_eq_ofList (List.length_map _)
  intro i hi
  simp [flat, List.getD_eq_getElem?_getD, hi, Scalar.integer]

variable [IsStrictOrderedRing R]

theorem naturals_ofList (values : List Nat) :
    naturals (Tensor.ofList (values.map fun (v : Nat) => (v : R))) = values := by
  apply List.ext_getElem
  · simp [naturals, Tensor.ofList]
  · intro k hk hk'
    have hin : Inside [(values.map fun (v : Nat) => (v : R)).length] [(k : Int)] := by
      simp [hk']
    simp only [naturals, List.getElem_map, List.getElem_range]
    rw [Tensor.ofList, Tensor.get_ofFn hin]
    simp [List.getD_eq_getElem?_getD, hk']

/-- ngraph with the shapes of a meaning, refusing nothing. -/
def Ngraph.ofMeaning (M : Meaning R) : Ngraph :=
  { Ngraph.permissive with getShape := fun node => (node.denote M 0).shape }

omit [LinearOrder R] [FloorRing R] [IsStrictOrderedRing R] in
theorem Ngraph.ofMeaning_infers (M : Meaning R) : (Ngraph.ofMeaning M).Infers M := fun _ => rfl

theorem reference_transposes : (reference inputs).Transposes where
  constant := reference_constant
  transpose x order _ := by rw [reference, naturals_ofList]

omit [IsStrictOrderedRing R] in
theorem reference_elementwise : (reference inputs).Elementwise where
  scalar _ _ := rfl
  convert _ := ⟨id, fun _ => rfl⟩
  subtract _ _ := rfl
  multiply _ _ := rfl

theorem reference_addsBias : (reference inputs).AddsBias where
  reshape x target := by rw [reference, naturals_ofList]
  add _ _ := rfl
  relu _ := rfl
  clamp _ _ _ := rfl

omit [IsStrictOrderedRing R] in
theorem reference_convolves : (reference inputs).Convolves := by
  intro attrs x f n cx h w o c fh fw hx hf
  simp [reference, hx, hf]

omit [IsStrictOrderedRing R] in
theorem reference_groupConvolves : (reference inputs).GroupConvolves := by
  intro attrs x f n cx h w g o c fh fw hx hf
  simp [reference, hx, hf]

end Reference

/-! ## Runs that build nodes -/

section Runs

variable {α : Type} {ng : Ngraph} {nodes : NgraphNodes}

/-- Where ngraph refuses nothing, a program that issues no stopping command
returns. -/
theorem builds_of_follows {p : Gen α} {accesses : List Access}
    (hp : Follows Cmd.access p accesses) (hstop : .stop ∉ accesses)
    (haccepts : ∀ op args, ng.accepts op args = true) :
    ∃ a, (exec (answer ng) p nodes).outcome = .ok a := by
  have hharmless : ∀ access ∈ accesses, access ≠ .stop := by
    intro access hmem heq
    exact hstop (heq ▸ hmem)
  refine hp.returns hharmless ?_ nodes
  intro c s hc
  cases c with
  | make op args => exact ⟨_, by simp only [answer, haccepts, if_true]; rfl⟩
  | abort => exact absurd rfl (hc .stop rfl)
  | throwException => exact absurd rfl (hc .stop rfl)
  | _ => exact ⟨_, rfl⟩

/-- A node that is returned was accepted. -/
theorem returns_make_accepted {op : NodeOp} {args : List Output} {Q : Node → Prop}
    (h : ng.accepts op args = true → Q (.mk op args)) :
    Returns (answer ng) nodes (makeShared op args) Q := by
  apply returns_perform
  intro r s' hr
  simp only [answer] at hr
  split at hr
  · next haccepts =>
    cases hr
    exact ⟨rfl, h haccepts⟩
  · cases hr

theorem returns_make {op : NodeOp} {args : List Output} {Q : Node → Prop}
    (h : Q (.mk op args)) : Returns (answer ng) nodes (makeShared op args) Q :=
  returns_make_accepted fun _ => h

theorem returns_const {type : ElementType} {shape : List Nat} {vals : List Scalar}
    {Q : Node → Prop} (h : Q (.mk (.constant type shape vals) [])) :
    Returns (answer ng) nodes (createConstNode type shape vals) Q := returns_make h

theorem returns_getShape {node : Node} {Q : List Nat → Prop} (h : Q (ng.getShape node)) :
    Returns (answer ng) nodes (issue (.getShape node)) Q := by
  apply returns_perform
  intro r s' hr
  cases hr
  exact ⟨rfl, h⟩

theorem returns_getElementType {node : Node} {Q : ElementType → Prop}
    (h : Q (ng.getElementType node)) :
    Returns (answer ng) nodes (issue (.getElementType node)) Q := by
  apply returns_perform
  intro r s' hr
  cases hr
  exact ⟨rfl, h⟩

theorem returns_getOperationOutput {index : Nat} {Q : Output → Prop}
    (h : Q ((nodes.getOperationOutput index).getD default)) :
    Returns (answer ng) nodes (issue (.getOperationOutput index)) Q := by
  apply returns_perform
  intro r s' hr
  cases hr
  exact ⟨rfl, h⟩

theorem returns_fault {f : Fault} {Q : Unit → Prop} (h : Q ()) :
    Returns (answer ng) nodes (fault f) Q := by
  apply returns_perform
  intro r s' hr
  cases hr
  exact ⟨rfl, h⟩

theorem returns_faultIf {b : Bool} {f : Fault} {Q : Unit → Prop} (h : Q ()) :
    Returns (answer ng) nodes (faultIf b f) Q := by
  unfold faultIf
  exact returns_ite (fun _ => returns_fault h) fun _ => returns_pure h

theorem returns_dimAt {dims : List Nat} {i : Nat} {Q : Nat → Prop} (h : Q (dims.getD i 0)) :
    Returns (answer ng) nodes (dimAt dims i) Q := by
  rw [List.getD_eq_getElem?_getD] at h
  unfold dimAt
  cases hi : dims[i]? with
  | some d => exact returns_pure (by simpa [hi] using h)
  | none =>
      refine Returns.bind (Q := fun _ => True) (returns_fault trivial) fun _ _ => ?_
      exact returns_pure (by simpa [hi] using h)

theorem returns_elementAt {β : Type} [Inhabited β] {v : List β} {i : Nat} {Q : β → Prop}
    (h : Q (v.getD i default)) : Returns (answer ng) nodes (elementAt v i) Q := by
  rw [List.getD_eq_getElem?_getD] at h
  unfold elementAt
  cases hi : v[i]? with
  | some d => exact returns_pure (by simpa [hi] using h)
  | none =>
      refine Returns.bind (Q := fun _ => True) (returns_fault trivial) fun _ _ => ?_
      exact returns_pure (by simpa [hi] using h)

theorem returns_shapeAt {node : Node} {i : Nat} {Q : Nat → Prop}
    (h : Q ((ng.getShape node).getD i 0)) :
    Returns (answer ng) nodes (shapeAt node i) Q := by
  rw [List.getD_eq_getElem?_getD] at h
  refine Returns.bind (Q := (· = ng.getShape node)) (returns_getShape rfl) ?_
  intro _ heq
  subst heq
  cases hi : (ng.getShape node)[i]? with
  | some d => exact returns_pure (by simpa [hi] using h)
  | none =>
      refine Returns.bind (Q := fun _ => True) (returns_fault trivial) fun _ _ => ?_
      exact returns_pure (by simpa [hi] using h)

theorem returns_divInt {a b : Int} {Q : Int → Prop} (h : Q (a.tdiv b)) :
    Returns (answer ng) nodes (divInt a b) Q :=
  Returns.bind (Q := fun _ => True) (returns_faultIf trivial) fun _ _ => returns_pure h

theorem returns_readLocal [Inhabited α] {x : Option α} {Q : α → Prop}
    (h : Q (x.getD default)) : Returns (answer ng) nodes (readLocal x) Q := by
  unfold readLocal
  cases x with
  | some v => exact returns_pure h
  | none =>
      refine Returns.bind (Q := fun _ => True) (returns_fault trivial) fun _ _ => ?_
      exact returns_pure h

theorem returns_nnAssert {b : Bool} : Returns (answer ng) nodes (nnAssert b) fun _ => True := by
  unfold nnAssert
  refine returns_ite (fun _ => returns_pure trivial) fun _ => ?_
  refine Returns.bind (Q := fun _ => False) (returns_perform fun r => r.elim) ?_
  exact fun _ h => h.elim

variable {info : NnapiModelInfo}

theorem returns_getOperandMemory {index : Nat} :
    Returns (answer ng) nodes (info.getOperandMemory index) fun _ => True := by
  have hread : Returns (answer ng) nodes (issue (.readOperand index)) fun _ => True := by
    apply returns_perform
    intro r s' hr
    cases hr
    exact ⟨rfl, trivial⟩
  unfold NnapiModelInfo.getOperandMemory
  refine hread.bind fun _ _ => ?_
  cases hl : (info.getOperand index).lifetime <;> simp only [hl]
  case constantCopy => exact returns_nnAssert.bind fun _ _ => returns_pure trivial
  case constantReference =>
    cases info.mPoolInfos[(info.getOperand index).location.poolIndex]? with
    | some buffer => exact returns_pure trivial
    | none =>
        refine Returns.bind (Q := fun _ => True) (returns_fault trivial) fun _ _ => ?_
        exact returns_pure trivial
  case subgraph => exact returns_nnAssert.bind fun _ _ => returns_pure trivial
  all_goals exact returns_pure trivial

/-- A scalar read returns the value of the operand. -/
theorem returns_getConstOperand {T : CType} {index : Nat} :
    Returns (answer ng) nodes (info.getConstOperand T index)
      (· = info.scalarValue T index) := by
  refine Returns.yields ?_ (NnapiModelInfo.yields_getConstOperand T index)
  apply returns_getOperandMemory.bind
  intro m _
  refine returns_nnAssert.bind fun _ _ => ?_
  cases m.1 with
  | some bytes => exact returns_pure trivial
  | none =>
      refine Returns.bind (Q := fun _ => True) (returns_fault trivial) fun _ _ => ?_
      exact returns_pure trivial

/-- A vector read returns the values of the operand. -/
theorem returns_getConstVecOperand {T : CType} {index : Nat} :
    Returns (answer ng) nodes (info.getConstVecOperand T index)
      (· = info.vectorValue T index) := by
  refine Returns.yields ?_ (NnapiModelInfo.yields_getConstVecOperand T index)
  apply returns_getOperandMemory.bind
  intro m _
  refine returns_nnAssert.bind fun _ _ => ?_
  cases m.1 with
  | some bytes => exact returns_pure trivial
  | none =>
      refine Returns.bind (Q := fun _ => True) (returns_faultIf trivial) fun _ _ => ?_
      exact returns_pure trivial

end Runs

end NnHal
