import NnHal.Elements
import NnHal.MatrixEntries
import NnHal.RecurrentLayers

/-!
# The arithmetic of the memory cell

`LSTM.cpp` builds its cell from sums, products, quotients and entrywise functions of
matrices.  Its sigmoid, its hyperbolic tangent and its square root are whatever
functions the meaning gives them; the rest is exact.

What ngraph accepts is said of its own shapes and element types: arithmetic takes two
tensors of one floating-point type and refuses two of different types.
-/

namespace NnHal

open Command Tensors

/-! ## Premises -/

/-- The arithmetic on two tensors. -/
def NodeOp.isArithmetic : NodeOp → Bool
  | .add | .subtract | .multiply | .divide => true
  | _ => false

/-- The functions of one entry. -/
def NodeOp.isEntrywise : NodeOp → Bool
  | .relu | .sigmoid | .tanh | .sqrt | .clamp _ _ => true
  | _ => false

/-- The axis `ReduceMean` is given. -/
def lastAxis : Node := .mk (.constant .i32 [] [.int (-1)]) []

/-- The bounds of a `Clamp` are in order. -/
def NodeOp.Ordered : NodeOp → Prop
  | .clamp low high => low.value ≤ high.value
  | _ => True

section Premises

variable {R : Type} [Field R] [LinearOrder R]

/-- The operations of a cell, with a sigmoid `σ`, a hyperbolic tangent `τ` and a square
root. -/
structure Meaning.ComputesCells (M : Meaning R) (σ τ root : R → R) : Prop where
  number : ∀ type shape v, type.isFloat = true →
    M (.constant type shape [v]) [] 0 = Tensor.ofFn shape fun _ => (v.value : R)
  transposes : M.Transposes
  add : ∀ x y, M .add [x, y] 0 = Tensor.broadcast (· + ·) x y
  subtract : ∀ x y, M .subtract [x, y] 0 = Tensor.broadcast (· - ·) x y
  multiply : ∀ x y, M .multiply [x, y] 0 = Tensor.broadcast (· * ·) x y
  divide : ∀ x y, M .divide [x, y] 0 = Tensor.broadcast (· / ·) x y
  relu : ∀ x, M .relu [x] 0 = x.map fun v => max v 0
  clamp : ∀ (x : Tensor R) (low high : Scalar),
    M (.clamp low high) [x] 0 = x.map fun v => min (max v (low.value : R)) (high.value : R)
  sigmoid : ∀ x, M .sigmoid [x] 0 = x.map σ
  tanh : ∀ x, M .tanh [x] 0 = x.map τ
  sqrt : ∀ x, M .sqrt [x] 0 = x.map root
  matMul : ∀ (x w : Tensor R) {m n k : Nat}, x.shape = [m, k] → w.shape = [n, k] →
    M (.matMul false true) [x, w] 0 = x.mulTransposed w
  rowMeans : ∀ (x : Tensor R) {m n : Nat}, x.shape = [m, n] →
    M (.reduceMean true) [x, M (.constant .i32 [] [.int (-1)]) [] 0] 0 = x.rowMeans

/-- ngraph accepts what fits, and derives the shapes and types. -/
structure Ngraph.ChecksCells (ng : Ngraph) : Prop where
  types : ng.InfersTypes
  constant : ∀ type shape (values : List Scalar), values.length = shape.prod ∨ values.length = 1 →
    ng.accepts (.constant type shape values) [] = true
  shape_constant : ∀ type shape values,
    ng.getShape (.mk (.constant type shape values) []) = shape
  /-- two tensors of different types are refused -/
  arithmetic : ∀ (op : NodeOp) (x y : Node), op.isArithmetic = true →
    (ng.getElementType x).isFloat = true → Broadcastable (ng.getShape x) (ng.getShape y) →
    (ng.accepts op [x, y] = true ↔ ng.getElementType y = ng.getElementType x)
  shape_arithmetic : ∀ (op : NodeOp) (x y : Node), op.isArithmetic = true →
    Broadcastable (ng.getShape x) (ng.getShape y) →
    ng.getShape (.mk op [x, y]) = Tensor.broadcastShape (ng.getShape x) (ng.getShape y)
  entrywise : ∀ (op : NodeOp) (x : Node), op.isEntrywise = true → op.Ordered →
    (ng.getElementType x).isFloat = true → ng.accepts op [x] = true
  shape_entrywise : ∀ (op : NodeOp) (x : Node), op.isEntrywise = true →
    ng.getShape (.mk op [x]) = ng.getShape x
  matMul : ∀ (x w : Node) {m n k : Nat}, (ng.getElementType x).isFloat = true →
    ng.getElementType w = ng.getElementType x → ng.getShape x = [m, k] → ng.getShape w = [n, k] →
    ng.accepts (.matMul false true) [x, w] = true ∧
      ng.getShape (.mk (.matMul false true) [x, w]) = [m, n]
  transpose : ∀ (x : Node) {m n : Nat}, ng.getShape x = [m, n] →
    ng.accepts .transpose [x, orderConstant [1, 0]] = true ∧
      ng.getShape (.mk .transpose [x, orderConstant [1, 0]]) = [n, m]
  rowMeans : ∀ (x : Node) {m n : Nat}, (ng.getElementType x).isFloat = true →
    ng.getShape x = [m, n] → ng.accepts (.reduceMean true) [x, lastAxis] = true ∧
      ng.getShape (.mk (.reduceMean true) [x, lastAxis]) = [m, 1]
  concat : ∀ (x : Node) (times : Nat) {m n : Nat}, 0 < times → ng.getShape x = [m, n] →
    ng.accepts (.concat 1) (List.replicate times (x, 0)) = true

/-- The node denotes the tensor, and ngraph knows its shape and its type. -/
structure Node.Realizes (node : Node) (ng : Ngraph) (M : Meaning R) (T : ElementType)
    (x : Tensor R) : Prop extends node.Carries ng M T x where
  shape : ng.getShape node = x.shape

end Premises

/-! ## The nodes -/

section Nodes

variable {R : Type} [Field R] [LinearOrder R] {M : Meaning R} {σ τ root : R → R} {ng : Ngraph}
variable {nodes : NgraphNodes} {T : ElementType} {m n k : Nat} {f g : Int → Int → R}

omit [LinearOrder R] in
/-- The arithmetic, entry by entry where the smaller tensor is repeated. -/
theorem gives_arithmetic (hng : ng.ChecksCells) (hT : T.isFloat = true) {op : NodeOp}
    (hop : op.isArithmetic = true) {h : R → R → R}
    (hM : ∀ x y, M op [x, y] 0 = Tensor.broadcast h x y) {a b : Node} {x y : Tensor R}
    (ha : a.Realizes ng M T x) (hb : b.Realizes ng M T y) (hfits : Broadcastable x.shape y.shape) :
    Gives (answer ng) nodes (makeShared op [a, b]) fun r =>
      r.Realizes ng M T (Tensor.broadcast h x y) := by
  have hfloat : (ng.getElementType a).isFloat = true := by rw [ha.type, hT]
  have hsame : ng.getElementType b = ng.getElementType a := by rw [ha.type, hb.type]
  have hshapes : Broadcastable (ng.getShape a) (ng.getShape b) := by
    rw [ha.shape, hb.shape]
    exact hfits
  have hkeeps : op.keepsType = true := by
    cases op <;> first | rfl | cases hop
  refine gives_make ((hng.arithmetic op a b hop hfloat hshapes).mpr hsame) ⟨⟨?_, ?_⟩, ?_⟩
  · rw [Node.denote_mk_two, ha.tensor, hb.tensor, hM]
  · rw [hng.types.keeps _ _ _ hkeeps]
    exact ha.type
  · rw [hng.shape_arithmetic op a b hop hshapes, ha.shape, hb.shape]
    rfl

omit [LinearOrder R] in
/-- Two matrices. -/
theorem gives_matrices (hng : ng.ChecksCells) (hT : T.isFloat = true) {op : NodeOp}
    (hop : op.isArithmetic = true) {h : R → R → R}
    (hM : ∀ x y, M op [x, y] 0 = Tensor.broadcast h x y) {a b : Node}
    (ha : a.Realizes ng M T (.matrix m n f)) (hb : b.Realizes ng M T (.matrix m n g)) :
    Gives (answer ng) nodes (makeShared op [a, b]) fun r =>
      r.Realizes ng M T (.matrix m n fun i j => h (f i j) (g i j)) := by
  apply (gives_arithmetic hng hT hop hM ha hb (broadcastable_self _)).mono
  intro r hr
  rwa [Tensor.broadcast_matrix] at hr

omit [LinearOrder R] in
/-- A matrix and a row. -/
theorem gives_rowRight (hng : ng.ChecksCells) (hT : T.isFloat = true) {op : NodeOp}
    (hop : op.isArithmetic = true) {h : R → R → R}
    (hM : ∀ x y, M op [x, y] 0 = Tensor.broadcast h x y) {a b : Node} {y : Tensor R}
    (ha : a.Realizes ng M T (.matrix m n f)) (hb : b.Realizes ng M T y) (hy : y.shape = [n]) :
    Gives (answer ng) nodes (makeShared op [a, b]) fun r =>
      r.Realizes ng M T (.matrix m n fun i j => h (f i j) (y.get [j])) := by
  have hfits : Broadcastable (Tensor.matrix m n f).shape y.shape := by
    rw [hy]
    exact broadcastable_vector [m] n
  apply (gives_arithmetic hng hT hop hM ha hb hfits).mono
  intro r hr
  rwa [Tensor.broadcast_row_right hy] at hr

omit [LinearOrder R] in
/-- A row and a matrix. -/
theorem gives_rowLeft (hng : ng.ChecksCells) (hT : T.isFloat = true) {op : NodeOp}
    (hop : op.isArithmetic = true) {h : R → R → R}
    (hM : ∀ x y, M op [x, y] 0 = Tensor.broadcast h x y) {a b : Node} {x : Tensor R}
    (ha : a.Realizes ng M T x) (hx : x.shape = [n]) (hb : b.Realizes ng M T (.matrix m n g)) :
    Gives (answer ng) nodes (makeShared op [a, b]) fun r =>
      r.Realizes ng M T (.matrix m n fun i j => h (x.get [j]) (g i j)) := by
  have hfits : Broadcastable x.shape (Tensor.matrix m n g).shape := by
    rw [hx]
    exact (broadcastable_vector [m] n).symm
  apply (gives_arithmetic hng hT hop hM ha hb hfits).mono
  intro r hr
  rwa [Tensor.broadcast_row_left hx] at hr

omit [LinearOrder R] in
/-- A matrix and a column. -/
theorem gives_columnRight (hng : ng.ChecksCells) (hT : T.isFloat = true) {op : NodeOp}
    (hop : op.isArithmetic = true) {h : R → R → R}
    (hM : ∀ x y, M op [x, y] 0 = Tensor.broadcast h x y) {a b : Node}
    (ha : a.Realizes ng M T (.matrix m n f)) (hb : b.Realizes ng M T (.matrix m 1 g)) :
    Gives (answer ng) nodes (makeShared op [a, b]) fun r =>
      r.Realizes ng M T (.matrix m n fun i j => h (f i j) (g i 0)) := by
  apply (gives_arithmetic hng hT hop hM ha hb (broadcastable_column m n)).mono
  intro r hr
  rwa [Tensor.broadcast_column_right] at hr

omit [LinearOrder R] in
/-- A function of the entries. -/
theorem gives_entrywise (hng : ng.ChecksCells) (hT : T.isFloat = true) {op : NodeOp}
    (hop : op.isEntrywise = true) (hordered : op.Ordered) {h : R → R}
    (hM : ∀ x, M op [x] 0 = x.map h) {a : Node} (ha : a.Realizes ng M T (.matrix m n f)) :
    Gives (answer ng) nodes (makeShared op [a]) fun r =>
      r.Realizes ng M T (.matrix m n fun i j => h (f i j)) := by
  have hfloat : (ng.getElementType a).isFloat = true := by rw [ha.type, hT]
  have hkeeps : op.keepsType = true := by
    cases op <;> first | rfl | cases hop
  refine gives_make (hng.entrywise op a hop hordered hfloat) ⟨⟨?_, ?_⟩, ?_⟩
  · rw [Node.denote_mk_one, ha.tensor, hM, Tensor.map_matrix]
  · rw [hng.types.keeps _ _ _ hkeeps]
    exact ha.type
  · rw [hng.shape_entrywise op a hop, ha.shape]
    rfl

/-- One number everywhere. -/
theorem gives_number (hM : M.ComputesCells σ τ root) (hng : ng.ChecksCells) (hT : T.isFloat = true)
    (shape : List Nat) {v : Scalar} {u : R} (hv : (v.value : R) = u) :
    Gives (answer ng) nodes (createConstNode T shape [v]) fun r =>
      r.Realizes ng M T (.ofFn shape fun _ => u) := by
  refine gives_make (hng.constant T shape [v] (.inr rfl)) ⟨⟨?_, ?_⟩, ?_⟩
  · rw [Node.denote, Node.denoteAll, hM.number T shape v hT, hv]
  · exact hng.types.constant T shape [v]
  · exact hng.shape_constant T shape [v]

/-- A product with a transposed matrix. -/
theorem gives_product (hM : M.ComputesCells σ τ root) (hng : ng.ChecksCells)
    (hT : T.isFloat = true) {a b : Node} {x w : Tensor R} (ha : a.Realizes ng M T x)
    (hb : b.Realizes ng M T w) (hx : x.shape = [m, k]) (hw : w.shape = [n, k]) :
    Gives (answer ng) nodes (makeShared (.matMul false true) [a, b]) fun r =>
      r.Realizes ng M T
        (.matrix m n fun i j => ∑ l ∈ Finset.range k, x.get [i, l] * w.get [j, l]) := by
  have hfloat : (ng.getElementType a).isFloat = true := by rw [ha.type, hT]
  have hsame : ng.getElementType b = ng.getElementType a := by rw [ha.type, hb.type]
  obtain ⟨haccepts, hshape⟩ :=
    hng.matMul a b hfloat hsame (ha.shape.trans hx) (hb.shape.trans hw)
  refine gives_make haccepts ⟨⟨?_, ?_⟩, hshape⟩
  · rw [Node.denote_mk_two, ha.tensor, hb.tensor, hM.matMul x w hx hw,
      Tensor.mulTransposed_matrix hx hw]
  · rw [hng.types.keeps _ _ _ rfl]
    exact ha.type

/-- Rows and columns change places. -/
theorem gives_turned (hM : M.ComputesCells σ τ root) (hng : ng.ChecksCells) {a : Node}
    (ha : a.Realizes ng M T (.matrix m n f)) :
    Gives (answer ng) nodes (transpose .ncCn a) fun r =>
      r.Realizes ng M T (.matrix n m fun i j => f j i) := by
  have hconstant : Gives (answer ng) nodes
      (makeShared (.constant .i64 [ConversionType.ncCn.order.length]
        (ConversionType.ncCn.order.map .int)) []) fun order => order = orderConstant [1, 0] :=
    gives_make (hng.constant _ _ _ (.inl rfl)) rfl
  obtain ⟨haccepts, hshape⟩ := hng.transpose a ha.shape
  have horder : IsOrder [1, 0] (Tensor.matrix m n f).shape.length := by
    have hrank : IsOrder [1, 0] 2 := by decide
    exact hrank
  unfold transpose
  refine hconstant.bind ?_
  intro _ heq
  subst heq
  refine gives_make haccepts ⟨⟨?_, ?_⟩, hshape⟩
  · rw [Node.denote_mk_two, denote_orderConstant hM.transposes, ha.tensor,
      hM.transposes.transpose _ _ horder, Tensor.transpose_matrix]
  · rw [hng.types.keeps _ _ _ rfl]
    exact ha.type

/-- The means of the rows. -/
theorem gives_rowMeans (hM : M.ComputesCells σ τ root) (hng : ng.ChecksCells)
    (hT : T.isFloat = true) {a : Node} (ha : a.Realizes ng M T (.matrix m n f)) :
    Gives (answer ng) nodes (makeShared (.reduceMean true) [a, lastAxis]) fun r =>
      r.Realizes ng M T (.matrix m 1 fun i _ => Tensor.mean n (f i)) := by
  have hfloat : (ng.getElementType a).isFloat = true := by rw [ha.type, hT]
  have haxis : lastAxis.denote M 0 = M (.constant .i32 [] [.int (-1)]) [] 0 := by
    rw [lastAxis, Node.denote, Node.denoteAll]
  obtain ⟨haccepts, hshape⟩ := hng.rowMeans a hfloat ha.shape
  refine gives_make haccepts ⟨⟨?_, ?_⟩, hshape⟩
  · rw [Node.denote_mk_two, ha.tensor, haxis, hM.rowMeans _ rfl, Tensor.rowMeans_matrix]
  · rw [hng.types.keeps _ _ _ rfl]
    exact ha.type

end Nodes

/-! ## A meaning with all of them -/

section Reference

variable {R : Type} [Field R] [LinearOrder R] [FloorRing R]

/-- The operations of the cell; parameters hold the given tensors. -/
def cellReference (inputs : Nat → Tensor R) (root σ τ : R → R) : Meaning R
  | .parameter operand _ _, [], _ => inputs operand
  | .constant _ shape values, [], _ =>
      Tensor.ofFn shape fun index => ((values.getD
        (if values.length = 1 then 0 else (flat shape index).toNat) (.int 0)).value : R)
  | .transpose, [x, order], _ => x.transpose (naturals order)
  | .add, [x, y], _ => Tensor.broadcast (· + ·) x y
  | .subtract, [x, y], _ => Tensor.broadcast (· - ·) x y
  | .multiply, [x, y], _ => Tensor.broadcast (· * ·) x y
  | .divide, [x, y], _ => Tensor.broadcast (· / ·) x y
  | .relu, [x], _ => x.map fun v => max v 0
  | .clamp low high, [x], _ => x.map fun v => min (max v (low.value : R)) (high.value : R)
  | .sigmoid, [x], _ => x.map σ
  | .tanh, [x], _ => x.map τ
  | .sqrt, [x], _ => x.map root
  | .matMul false true, [x, w], _ => x.mulTransposed w
  | .reduceMean true, [x, _], _ => x.rowMeans
  | _, _, _ => default

/-- The shape of a node of the cell. -/
def Node.staticShape : Node → List Nat
  | .mk (.parameter _ _ shape) _ => shape
  | .mk (.constant _ shape _) _ => shape
  | .mk (.matMul _ _) [(x, _), (w, _)] => [x.staticShape.getD 0 0, w.staticShape.getD 0 0]
  | .mk .transpose ((x, _) :: _) => x.staticShape.reverse
  | .mk (.reduceMean _) ((x, _) :: _) => x.staticShape.set 1 1
  | .mk .add [(x, _), (y, _)] => Tensor.broadcastShape x.staticShape y.staticShape
  | .mk .subtract [(x, _), (y, _)] => Tensor.broadcastShape x.staticShape y.staticShape
  | .mk .multiply [(x, _), (y, _)] => Tensor.broadcastShape x.staticShape y.staticShape
  | .mk .divide [(x, _), (y, _)] => Tensor.broadcastShape x.staticShape y.staticShape
  | .mk _ ((x, _) :: _) => x.staticShape
  | .mk _ [] => []

/-- ngraph with these shapes, refusing arithmetic on two types. -/
def Ngraph.static : Ngraph :=
  { Ngraph.permissive with
    getShape := Node.staticShape
    getElementType := Node.elementType
    accepts := fun op args =>
      match args with
      | [(x, _), (y, _)] => !op.isArithmetic || y.elementType = x.elementType
      | _ => true }

theorem Ngraph.static_infersTypes : Ngraph.static.InfersTypes where
  constant _ _ _ := rfl
  keeps op x args hop := by
    rcases x with ⟨node, index⟩
    cases op <;> first | rfl | cases hop

theorem Ngraph.static_checksCells : Ngraph.static.ChecksCells where
  types := static_infersTypes
  constant _ _ _ _ := rfl
  shape_constant _ _ _ := rfl
  arithmetic op x y hop _ _ := by
    have haccepts : Ngraph.static.accepts op [(x, 0), (y, 0)] =
        (!op.isArithmetic || decide (y.elementType = x.elementType)) := rfl
    rw [haccepts, hop, Bool.not_true, Bool.false_or, decide_eq_true_eq]
    exact Iff.rfl
  shape_arithmetic op x y hop _ := by
    cases op <;> first | rfl | cases hop
  entrywise _ _ _ _ _ := rfl
  shape_entrywise op x hop := by
    cases op <;> first | rfl | cases hop
  matMul x w m n k _ _ hx hw := by
    have hshape : Ngraph.static.getShape (.mk (.matMul false true) [(x, 0), (w, 0)]) =
        [(Ngraph.static.getShape x).getD 0 0, (Ngraph.static.getShape w).getD 0 0] := rfl
    refine ⟨rfl, ?_⟩
    rw [hshape, hx, hw]
    rfl
  transpose x m n hx := by
    have hshape : Ngraph.static.getShape (.mk .transpose [(x, 0), (orderConstant [1, 0], 0)]) =
        (Ngraph.static.getShape x).reverse := rfl
    refine ⟨rfl, ?_⟩
    rw [hshape, hx]
    rfl
  rowMeans x m n _ hx := by
    have hshape : Ngraph.static.getShape (.mk (.reduceMean true) [(x, 0), (lastAxis, 0)]) =
        (Ngraph.static.getShape x).set 1 1 := rfl
    refine ⟨rfl, ?_⟩
    rw [hshape, hx]
    rfl
  concat x times m n _ _ := by
    match times with
    | 0 | 1 | 2 | _ + 3 => rfl

variable [IsStrictOrderedRing R] {inputs : Nat → Tensor R} {root σ τ : R → R}

omit [IsStrictOrderedRing R] in
/-- A list of integers is as long as it has entries, and one integer is everywhere. -/
theorem cellReference_constant (type : ElementType) (values : List Int) :
    cellReference inputs root σ τ (.constant type [values.length] (values.map .int)) [] 0 =
      Tensor.ofList (values.map fun (v : Int) => (v : R)) := by
  apply Tensor.ofFn_eq_ofList (List.length_map _)
  intro i hi
  have hposition : (if (values.map Scalar.int).length = 1 then 0
      else (flat [values.length] [i]).toNat) = i := by
    rw [List.length_map]
    split
    · omega
    · simp [flat]
  rw [hposition]
  simp [List.getD_eq_getElem?_getD, hi, Scalar.value]

theorem cellReference_computes : (cellReference inputs root σ τ).ComputesCells σ τ root where
  number _ _ _ _ := rfl
  transposes :=
    { constant := cellReference_constant
      transpose := fun x order _ => by rw [cellReference, naturals_ofList] }
  add _ _ := rfl
  subtract _ _ := rfl
  multiply _ _ := rfl
  divide _ _ := rfl
  relu _ := rfl
  clamp _ _ _ := rfl
  sigmoid _ := rfl
  tanh _ := rfl
  sqrt _ := rfl
  matMul _ _ _ _ _ _ _ := rfl
  rowMeans _ _ _ _ := rfl

end Reference

end NnHal
