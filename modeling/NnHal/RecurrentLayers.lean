import Mathlib.Data.List.Forall2
import NnHal.Matrices
import NnHal.NnapiConvolutions
import NnHal.Recurrent

/-!
# What a recurrent layer computes

A layer with weights `W`, recurrent weights `R` and a bias `b` takes a state `h`
and an input `x` to the next state `act (x Wᵀ + h Rᵀ + b)`.  The nodes of a step
denote it for every input of two units or more; an input of one unit is squeezed
away, and ngraph refuses the product.
-/

namespace NnHal

open Command Tensors

/-! ## The operations of the layers -/

section Premises

variable {R : Type} [CommRing R]

/-- `Split`, `Squeeze` with an empty list of axes, `MatMul` with a transposed right
matrix, `Concat` and `Reshape`. -/
structure Meaning.Recurs (M : Meaning R) : Prop where
  split : M.Splits fun _ => True
  squeeze : ∀ x, M .squeeze [x, Tensor.ofList []] 0 = x.squeeze
  matMul : ∀ (x w : Tensor R) {m n k : Nat}, x.shape = [m, k] → w.shape = [n, k] →
    M (.matMul false true) [x, w] 0 = x.mulTransposed w
  /-- a vector is a row; whether the row keeps its first axis is left open -/
  matMulRow : ∀ (x w : Tensor R) {n k : Nat}, x.shape = [k] → w.shape = [n, k] →
    ∃ shape, (shape = [1, n] ∨ shape = [n]) ∧
      M (.matMul false true) [x, w] 0 = ((x.reshape [1, k]).mulTransposed w).reshape shape
  concat : ∀ (axis : Nat) (xs : List (Tensor R)), xs ≠ [] →
    Joinable axis (xs.map fun x => x.shape) → M (.concat axis) xs 0 = Tensor.concat axis xs
  reshape : ∀ (x : Tensor R) (target : List Nat), target.prod = x.shape.prod →
    M (.reshape false) [x, Tensor.ofList (target.map fun (d : Nat) => (d : R))] 0 =
      x.reshape target

/-- The tensor at an output. -/
abbrev Output.tensor (M : Meaning R) (output : Output) : Tensor R := output.1.denote M output.2

/-- The element type at an output. -/
abbrev Output.type (ng : Ngraph) (output : Output) : ElementType := ng.getElementType output.1

/-- The floating-point types. -/
def ElementType.isFloat : ElementType → Bool
  | .f16 | .f32 => true
  | _ => false

theorem ElementType.isFloat_f32 : ElementType.f32.isFloat = true := rfl

/-- The operation has the element type of its first argument. -/
def NodeOp.keepsType : NodeOp → Bool
  | .relu | .sigmoid | .sqrt | .tanh | .clamp _ _ | .add | .subtract | .multiply | .divide
  | .transpose | .squeeze | .reshape _ | .concat _ | .split _ | .matMul _ _ | .reduceMean _ => true
  | _ => false

/-- ngraph derives the element types. -/
structure Ngraph.InfersTypes (ng : Ngraph) : Prop where
  constant : ∀ type shape values, ng.getElementType (.mk (.constant type shape values) []) = type
  keeps : ∀ (op : NodeOp) (x : Output) (args : List Output), op.keepsType = true →
    ng.getElementType (.mk op (x :: args)) = x.type ng

/-- The order `Transpose` is given. -/
def orderConstant (axes : List Nat) : Node :=
  .mk (.constant .i64 [axes.length] (axes.map fun (a : Nat) => .int a)) []

/-- The empty list of axes `Squeeze` is given. -/
def noAxes : Node := .mk (.constant .i32 [0] []) []

/-- The shape `Reshape` is given. -/
def sizesConstant (sizes : List Nat) : Node :=
  .mk (.constant .i32 [sizes.length] (sizes.map fun (d : Nat) => .int d)) []

/-- ngraph accepts the operations on shapes that fit, arithmetic on floating-point
tensors of one type, and a product only on shapes that fit. -/
structure Ngraph.ChecksShapes (ng : Ngraph) (M : Meaning R) : Prop where
  types : ng.InfersTypes
  constant : ∀ type shape (values : List Scalar), values.length = shape.prod →
    ng.accepts (.constant type shape values) [] = true
  transpose : ∀ (x : Output) (axes : List Nat), IsOrder axes (x.tensor M).shape.length →
    ng.accepts .transpose [x, (orderConstant axes, 0)] = true
  split : ∀ (x axis : Output) (numSplits size : Nat) (v : Int),
    axis = (.mk (.constant .i32 [] [.int v]) [], 0) → -(x.tensor M).shape.length ≤ v →
    v < (x.tensor M).shape.length → 0 < numSplits →
    (x.tensor M).shape.getD (normalAxis (x.tensor M).shape.length v) 0 = numSplits * size →
    ng.accepts (.split numSplits) [x, axis] = true
  squeeze : ∀ x : Output, ng.accepts .squeeze [x, (noAxes, 0)] = true
  matMul : ∀ (x w : Output) {n k : Nat}, (x.type ng).isFloat = true → w.type ng = x.type ng →
    (w.tensor M).shape = [n, k] → (x.tensor M).shape.length ≤ 2 →
    (ng.accepts (.matMul false true) [x, w] = true ↔
      (x.tensor M).shape = [k] ∨ ∃ m, (x.tensor M).shape = [m, k])
  add : ∀ x y : Output, (x.type ng).isFloat = true → y.type ng = x.type ng →
    Broadcastable (x.tensor M).shape (y.tensor M).shape → ng.accepts .add [x, y] = true
  relu : ∀ x : Output, (x.type ng).isFloat = true → ng.accepts .relu [x] = true
  clamp : ∀ (low high : Int) (x : Output), low ≤ high → (x.type ng).isFloat = true →
    ng.accepts (.clamp (.int low) (.int high)) [x] = true
  concat : ∀ (axis : Nat) (xs : List Output), xs ≠ [] →
    Joinable axis (xs.map fun x => (x.tensor M).shape) →
    (∀ x ∈ xs, ∀ y ∈ xs, x.type ng = y.type ng) → ng.accepts (.concat axis) xs = true
  reshape : ∀ (x : Output) (target : List Nat), target.prod = (x.tensor M).shape.prod →
    ng.accepts (.reshape false) [x, (sizesConstant target, 0)] = true

/-- The node denotes the tensor, with elements of a type. -/
structure Node.Carries (node : Node) (ng : Ngraph) (M : Meaning R) (T : ElementType)
    (x : Tensor R) : Prop where
  tensor : node.denote M 0 = x
  type : ng.getElementType node = T

/-- Each of the nodes denotes one of the tensors. -/
abbrev CarriesAll (ng : Ngraph) (M : Meaning R) (T : ElementType) :
    List (Tensor R) → List Node → Prop :=
  List.Forall₂ fun x node => node.Carries ng M T x

theorem CarriesAll.denote {ng : Ngraph} {M : Meaning R} {T : ElementType} {xs : List (Tensor R)}
    {outputs : List Node} (h : CarriesAll ng M T xs outputs) :
    (outputs.map fun node => node.denote M 0) = xs := by
  induction h with
  | nil => rfl
  | cons hnode _ ih => rw [List.map_cons, ih, hnode.tensor]

theorem CarriesAll.type {ng : Ngraph} {M : Meaning R} {T : ElementType} {xs : List (Tensor R)}
    {outputs : List Node} (h : CarriesAll ng M T xs outputs) :
    ∀ node ∈ outputs, ng.getElementType node = T := by
  induction h with
  | nil => exact fun _ hmem => absurd hmem List.not_mem_nil
  | cons hnode _ ih =>
      intro node hmem
      rcases List.mem_cons.mp hmem with rfl | hrest
      · exact hnode.type
      · exact ih node hrest

theorem CarriesAll.getLast? {ng : Ngraph} {M : Meaning R} {T : ElementType} {xs : List (Tensor R)}
    {outputs : List Node} (h : CarriesAll ng M T xs outputs) {x : Tensor R}
    (hx : xs.getLast? = some x) :
    ∃ last, outputs.getLast? = some last ∧ last.Carries ng M T x := by
  have hlast := hx
  rw [← h.denote, List.getLast?_map, Option.map_eq_some_iff] at hlast
  rcases hlast with ⟨last, hget, hdenote⟩
  exact ⟨last, hget, hdenote, h.type last (List.mem_of_getLast? hget)⟩

end Premises

/-! ## Layers -/

/-- The parameters of a recurrent layer. -/
structure Layer (R : Type) [Zero R] where
  batch : Nat
  inputSize : Nat
  units : Nat
  weights : Tensor R
  recurrentWeights : Tensor R
  bias : Tensor R
  elementType : ElementType
  activationFn : Int
  isFloat : elementType.isFloat = true
  batch_pos : 0 < batch
  inputSize_pos : 0 < inputSize
  units_pos : 0 < units
  shape_weights : weights.shape = [units, inputSize]
  shape_recurrentWeights : recurrentWeights.shape = [units, units]
  shape_bias : bias.shape = [units]

namespace Layer

section Recurrence

variable {R : Type} [CommRing R] [LinearOrder R]

/-- `act (x Wᵀ + h Rᵀ + b)`. -/
def step (l : Layer R) (x h : Tensor R) : Tensor R :=
  Tensor.ofFn [l.batch, l.units] fun
    | [n, u] => fusedActivation l.activationFn
        (∑ i ∈ Finset.range l.inputSize, x.get [n, i] * l.weights.get [u, i] +
          (∑ v ∈ Finset.range l.units, h.get [n, v] * l.recurrentWeights.get [u, v] +
            l.bias.get [u]))
    | _ => 0

/-- The state after the first inputs. -/
def state (l : Layer R) (x : Nat → Tensor R) (h : Tensor R) : Nat → Tensor R
  | 0 => h
  | t + 1 => l.step (x t) (l.state x h t)

variable {l : Layer R} {x h : Tensor R}

@[simp] theorem shape_step (l : Layer R) (x h : Tensor R) :
    (l.step x h).shape = [l.batch, l.units] := rfl

theorem get_step (l : Layer R) (x h : Tensor R) {n u : Int}
    (hin : Inside [l.batch, l.units] [n, u]) :
    (l.step x h).get [n, u] = fusedActivation l.activationFn
      (∑ i ∈ Finset.range l.inputSize, x.get [n, i] * l.weights.get [u, i] +
        (∑ v ∈ Finset.range l.units, h.get [n, v] * l.recurrentWeights.get [u, v] +
          l.bias.get [u])) := Tensor.get_ofFn hin

theorem shape_state {x : Nat → Tensor R} (hh : h.shape = [l.batch, l.units]) (t : Nat) :
    (l.state x h t).shape = [l.batch, l.units] := by
  cases t with
  | zero => exact hh
  | succ t => rfl

omit [LinearOrder R] in
/-- The product with the state, before the bias is added. -/
theorem shape_recurrent (hh : h.shape = [l.batch, l.units]) :
    (h.mulTransposed l.recurrentWeights).shape = [l.batch] ++ l.units :: [] :=
  Tensor.shape_mulTransposed hh l.shape_recurrentWeights

omit [LinearOrder R] in
theorem shape_biased (hh : h.shape = [l.batch, l.units]) :
    (Tensor.broadcast (· + ·) (h.mulTransposed l.recurrentWeights) l.bias).shape =
      [l.batch, l.units] :=
  (Tensor.shape_broadcast_channel (shape_recurrent hh) l.shape_bias).trans (shape_recurrent hh)

/-- The step as the nodes compute it. -/
theorem step_eq (hx : x.shape = [l.batch, l.inputSize]) (hh : h.shape = [l.batch, l.units]) :
    l.step x h = (Tensor.broadcast (· + ·) (x.mulTransposed l.weights)
      (Tensor.broadcast (· + ·) (h.mulTransposed l.recurrentWeights) l.bias)).map
        (fusedActivation l.activationFn) := by
  have hinput := Tensor.shape_mulTransposed hx l.shape_weights
  have hhidden := shape_recurrent hh
  have hbiased := shape_biased hh
  have hsum := (Tensor.shape_broadcast_same (f := (· + ·)) (hbiased.trans hinput.symm)).trans hinput
  refine Tensor.ext_matrix rfl hsum fun n u hin => ?_
  rw [get_step l x h hin, Tensor.get_map (hsum.symm ▸ hin),
    Tensor.get_broadcast_same (hbiased.trans hinput.symm) (hinput.symm ▸ hin),
    Tensor.get_mulTransposed hx l.shape_weights hin,
    Tensor.get_broadcast_channel hhidden l.shape_bias (hhidden.symm ▸ hin),
    Tensor.get_mulTransposed hh l.shape_recurrentWeights hin]
  rfl

end Recurrence

end Layer

/-! ## The nodes of a step -/

section Nodes

variable {R : Type} [CommRing R] {M : Meaning R} {ng : Ngraph} {nodes : NgraphNodes}

theorem gives_make {op : NodeOp} {args : List Output} {Q : Node → Prop}
    (haccepts : ng.accepts op args = true) (h : Q (.mk op args)) :
    Gives (answer ng) nodes (makeShared op args) Q := by
  have hanswer : answer ng (.make op args) nodes = .ok (.mk op args, nodes) := by
    simp only [answer, haccepts, if_true]
  exact gives_perform hanswer h

theorem gives_const (hng : ng.ChecksShapes M) {type : ElementType} {shape : List Nat}
    {values : List Scalar} {Q : Node → Prop} (hlength : values.length = shape.prod)
    (h : Q (.mk (.constant type shape values) [])) :
    Gives (answer ng) nodes (createConstNode type shape values) Q :=
  gives_make (hng.constant type shape values hlength) h

variable [LinearOrder R] {l : Layer R}

theorem gives_applyActivation (hM : M.AddsBias) (hng : ng.ChecksShapes M) {node : Node}
    {code : Int} {T : ElementType} {x : Tensor R} (hT : T.isFloat = true)
    (hnode : node.Carries ng M T x) :
    Gives (answer ng) nodes (applyActivation node code) fun r =>
      r.Carries ng M T (x.map (fusedActivation code)) := by
  have hfloat : (Output.type ng (node, 0)).isFloat = true := by rw [Output.type, hnode.type, hT]
  have htype : ∀ op : NodeOp, op.keepsType = true →
      ng.getElementType (.mk op [(node, 0)]) = T := by
    intro op hop
    rw [hng.types.keeps op _ _ hop, Output.type, hnode.type]
  have hbuilds : Gives (answer ng) nodes (applyActivation node code) fun r =>
      ng.getElementType r = T := by
    unfold applyActivation
    refine gives_ite (fun _ => gives_pure hnode.type) fun _ => ?_
    refine gives_ite (fun _ => gives_make (hng.relu _ hfloat) (htype _ rfl)) fun _ => ?_
    refine gives_ite (fun _ => gives_make (hng.clamp _ _ _ (by decide) hfloat) (htype _ rfl))
      fun _ => ?_
    exact gives_ite (fun _ => gives_make (hng.clamp _ _ _ (by decide) hfloat) (htype _ rfl))
      fun _ => gives_pure hnode.type
  rcases hbuilds with ⟨r, hr, hstate, hresult⟩
  obtain ⟨-, hdenote⟩ := returns_applyActivation hM r hr
  exact ⟨r, hr, hstate, by rw [hdenote, hnode.tensor], hresult⟩

omit [LinearOrder R] in
/-- A product of two matrices. -/
theorem gives_matMul (hM : M.Recurs) (hng : ng.ChecksShapes M) {T : ElementType}
    (hT : T.isFloat = true) {node W : Node} {x w : Tensor R} {m n k : Nat}
    (hnode : node.Carries ng M T x) (hW : W.Carries ng M T w) (hx : x.shape = [m, k])
    (hw : w.shape = [n, k]) :
    Gives (answer ng) nodes (makeShared (.matMul false true) [node, W]) fun r =>
      r.Carries ng M T (x.mulTransposed w) := by
  have hfloat : (Output.type ng (node, 0)).isFloat = true := by rw [Output.type, hnode.type, hT]
  have hsame : Output.type ng (W, 0) = Output.type ng (node, 0) := by
    rw [Output.type, Output.type, hnode.type, hW.type]
  have hshape : (Output.tensor M (node, 0)).shape = [m, k] := by
    rw [Output.tensor, hnode.tensor, hx]
  have hshape' : (Output.tensor M (W, 0)).shape = [n, k] := by rw [Output.tensor, hW.tensor, hw]
  have hrank : (Output.tensor M (node, 0)).shape.length ≤ 2 := by rw [hshape]; exact le_refl 2
  refine gives_make ((hng.matMul _ _ hfloat hsame hshape' hrank).mpr (.inr ⟨m, hshape⟩)) ⟨?_, ?_⟩
  · rw [Node.denote_mk_two, hnode.tensor, hW.tensor]
    exact hM.matMul x w hx hw
  · rw [hng.types.keeps _ _ _ rfl, Output.type, hnode.type]

omit [LinearOrder R] in
/-- A broadcast sum. -/
theorem gives_add (hadd : ∀ x y, M .add [x, y] 0 = Tensor.broadcast (· + ·) x y)
    (hng : ng.ChecksShapes M) {T : ElementType} (hT : T.isFloat = true) {node node' : Node}
    {x y : Tensor R} (hnode : node.Carries ng M T x) (hnode' : node'.Carries ng M T y)
    (hfits : Broadcastable x.shape y.shape) :
    Gives (answer ng) nodes (makeShared .add [node, node']) fun r =>
      r.Carries ng M T (Tensor.broadcast (· + ·) x y) := by
  have hfloat : (Output.type ng (node, 0)).isFloat = true := by rw [Output.type, hnode.type, hT]
  have hsame : Output.type ng (node', 0) = Output.type ng (node, 0) := by
    rw [Output.type, Output.type, hnode.type, hnode'.type]
  have hshapes : Broadcastable (Output.tensor M (node, 0)).shape
      (Output.tensor M (node', 0)).shape := by
    rw [Output.tensor, Output.tensor, hnode.tensor, hnode'.tensor]
    exact hfits
  refine gives_make (hng.add _ _ hfloat hsame hshapes) ⟨?_, ?_⟩
  · rw [Node.denote_mk_two, hnode.tensor, hnode'.tensor]
    exact hadd x y
  · rw [hng.types.keeps _ _ _ rfl, Output.type, hnode.type]

/-- The matrix, or its row without the first axis. -/
def RowOf (m n : Nat) (x y : Tensor R) : Prop := x = y ∨ m = 1 ∧ x = y.reshape [n]

/-- The output is the input of a step. -/
structure Layer.Feeds (l : Layer R) (ng : Ngraph) (M : Meaning R) (output : Output)
    (x : Tensor R) : Prop where
  shape : x.shape = [l.batch, l.inputSize]
  tensor : RowOf l.batch l.inputSize (output.tensor M) x
  type : output.type ng = l.elementType

/-- The nodes of the parameters denote them. -/
structure Layer.Given (l : Layer R) (ng : Ngraph) (M : Meaning R) (W recurrent bias : Node)
    (activationFn : Int) : Prop where
  weights : W.Carries ng M l.elementType l.weights
  recurrentWeights : recurrent.Carries ng M l.elementType l.recurrentWeights
  bias : bias.Carries ng M l.elementType l.bias
  activationFn : toInt32 activationFn = l.activationFn

omit [LinearOrder R] in
/-- The product with the weights. -/
theorem Layer.Feeds.product (hM : M.Recurs) (hng : ng.ChecksShapes M) {output : Output} {W : Node}
    {x : Tensor R} (h : l.Feeds ng M output x) (hW : W.Carries ng M l.elementType l.weights) :
    Gives (answer ng) nodes (makeShared (.matMul false true) [output, W]) fun node =>
      RowOf l.batch l.units (node.denote M 0) (x.mulTransposed l.weights) ∧
        ng.getElementType node = l.elementType := by
  have hfloat : (output.type ng).isFloat = true := by rw [h.type, l.isFloat]
  have hsame : Output.type ng (W, 0) = output.type ng := by rw [Output.type, h.type, hW.type]
  have hweights : (Output.tensor M (W, 0)).shape = [l.units, l.inputSize] := by
    rw [Output.tensor, hW.tensor, l.shape_weights]
  have hresult : ng.getElementType (.mk (.matMul false true) [output, (W, 0)]) = l.elementType := by
    rw [hng.types.keeps _ _ _ rfl, h.type]
  have hproduct := Tensor.shape_mulTransposed h.shape l.shape_weights
  rcases h.tensor with heq | ⟨hone, heq⟩
  · have hrank : (output.tensor M).shape.length ≤ 2 := by rw [heq, h.shape]; exact le_refl 2
    have hfits : (output.tensor M).shape = [l.inputSize] ∨
        ∃ m, (output.tensor M).shape = [m, l.inputSize] := .inr ⟨l.batch, by rw [heq, h.shape]⟩
    refine gives_make ((hng.matMul output (W, 0) hfloat hsame hweights hrank).mpr hfits)
      ⟨.inl ?_, hresult⟩
    have hmatrix := hM.matMul x l.weights h.shape l.shape_weights
    rw [Node.denote_mk_two, hW.tensor]
    exact (congrArg (fun y => M (.matMul false true) [y, l.weights] 0) heq).trans hmatrix
  · have hvector : (output.tensor M).shape = [l.inputSize] := by rw [heq]; rfl
    have hrank : (output.tensor M).shape.length ≤ 2 := by rw [hvector]; exact Nat.le_succ 1
    have haccepts := (hng.matMul output (W, 0) hfloat hsame hweights hrank).mpr (.inl hvector)
    refine gives_make haccepts ⟨?_, hresult⟩
    obtain ⟨shape, hshape, hrow⟩ := hM.matMulRow _ l.weights hvector l.shape_weights
    have hx : x.shape = [1, l.inputSize] := hone ▸ h.shape
    have hproduct' : (x.mulTransposed l.weights).shape = [1, l.units] := hone ▸ hproduct
    have hback : (output.tensor M).reshape [1, l.inputSize] = x := by
      rw [heq, Tensor.reshape_reshape (by rw [hx]; simp) (by simp), ← hx, Tensor.reshape_self]
    have hnode : (Node.mk (.matMul false true) [output, (W, 0)]).denote M 0 =
        (x.mulTransposed l.weights).reshape shape := by
      rw [Node.denote_mk_two, hW.tensor, ← hback]
      exact hrow
    rcases hshape with rfl | rfl
    · rw [← hproduct', Tensor.reshape_self] at hnode
      exact .inl hnode
    · exact .inr ⟨hone, hnode⟩

/-- The two sums a step activates: the product with the weights, and that of the
state with the bias. -/
structure Layer.Products (l : Layer R) (ng : Ngraph) (M : Meaning R) (x h : Tensor R)
    (p : Node × Node) : Prop where
  input : RowOf l.batch l.units (p.1.denote M 0) (x.mulTransposed l.weights)
  type : ng.getElementType p.1 = l.elementType
  hidden : p.2.Carries ng M l.elementType
    (Tensor.broadcast (· + ·) (h.mulTransposed l.recurrentWeights) l.bias)

theorem gives_rnnProducts (hM : M.Recurs) (hadd : M.AddsBias) (hng : ng.ChecksShapes M)
    {output : Output} {W recurrent bias hidden : Node} {activationFn : Int} {x h : Tensor R}
    (hx : l.Feeds ng M output x) (hl : l.Given ng M W recurrent bias activationFn)
    (hhidden : hidden.Carries ng M l.elementType h) (hh : h.shape = [l.batch, l.units]) :
    Gives (answer ng) nodes (rnnProducts output W recurrent bias hidden) (l.Products ng M x h) := by
  have hproduct := Tensor.shape_mulTransposed hh l.shape_recurrentWeights
  have hfits : Broadcastable (h.mulTransposed l.recurrentWeights).shape l.bias.shape := by
    rw [hproduct, l.shape_bias]
    exact broadcastable_vector [l.batch] l.units
  unfold rnnProducts
  apply (hx.product hM hng hl.weights).bind
  intro input_W hinput
  refine (gives_matMul hM hng l.isFloat hhidden hl.recurrentWeights hh
    l.shape_recurrentWeights).bind fun Ht_R hnode => ?_
  apply (gives_add hadd.add hng l.isFloat hnode hl.bias hfits).bind
  intro add hsum
  exact gives_pure ⟨hinput.1, hinput.2, hsum⟩

/-- Their sum, activated. -/
theorem gives_rnnOutput (hadd : M.AddsBias) (hng : ng.ChecksShapes M) {x h : Tensor R}
    {p : Node × Node} (hx : x.shape = [l.batch, l.inputSize]) (hh : h.shape = [l.batch, l.units])
    (hp : l.Products ng M x h p) {activationFn : Int}
    (hactivation : toInt32 activationFn = l.activationFn) :
    Gives (answer ng) nodes (rnnOutput p.1 p.2 activationFn) fun node =>
      node.Carries ng M l.elementType (l.step x h) := by
  have hinput := Tensor.shape_mulTransposed hx l.shape_weights
  have hbiased := Layer.shape_biased hh
  have hfits : Broadcastable (p.1.denote M 0).shape
      (Tensor.broadcast (· + ·) (h.mulTransposed l.recurrentWeights) l.bias).shape := by
    rw [hbiased]
    rcases hp.input with heq | ⟨-, heq⟩
    · rw [heq, hinput]
      exact broadcastable_self _
    · rw [heq]
      exact (broadcastable_vector [l.batch] l.units).symm
  -- a row that lacks its first axis is broadcast to it
  have hsum : Tensor.broadcast (· + ·) (p.1.denote M 0)
      (Tensor.broadcast (· + ·) (h.mulTransposed l.recurrentWeights) l.bias) =
      Tensor.broadcast (· + ·) (x.mulTransposed l.weights)
        (Tensor.broadcast (· + ·) (h.mulTransposed l.recurrentWeights) l.bias) := by
    rcases hp.input with heq | ⟨hone, heq⟩
    · rw [heq]
    · rw [heq, Tensor.broadcast_row (hone ▸ hinput) (hone ▸ hbiased)]
  unfold rnnOutput
  apply (gives_add hadd.add hng l.isFloat ⟨rfl, hp.type⟩ hp.hidden hfits).bind
  intro node hnode
  apply (gives_applyActivation hadd hng l.isFloat hnode).mono
  intro r hr
  rwa [hsum, hactivation, ← Layer.step_eq hx hh] at hr

/-- A step of the layer. -/
theorem gives_rnnStep (hM : M.Recurs) (hadd : M.AddsBias) (hng : ng.ChecksShapes M)
    {output : Output} {W recurrent bias hidden : Node} {activationFn : Int} {x h : Tensor R}
    (hx : l.Feeds ng M output x) (hl : l.Given ng M W recurrent bias activationFn)
    (hhidden : hidden.Carries ng M l.elementType h) (hh : h.shape = [l.batch, l.units]) :
    Gives (answer ng) nodes (rnnStep output W recurrent bias hidden activationFn) fun node =>
      node.Carries ng M l.elementType (l.step x h) := by
  unfold rnnStep
  apply (gives_rnnProducts hM hadd hng hx hl hhidden hh).bind
  intro p hp
  exact gives_rnnOutput hadd hng hx.shape hh hp hl.activationFn

/-! ## Reading a sequence -/

omit [LinearOrder R] in
/-- Without its axes of size one, the input of a step still is one. -/
theorem RowOf.squeeze {m n : Nat} {x y : Tensor R} (hn : n ≠ 1) (hy : y.shape = [m, n])
    (h : RowOf m n x y) : RowOf m n x.squeeze y := by
  have hvector : ([n].filter (· ≠ 1)) = [n] := by simp [hn]
  rcases h with rfl | ⟨hone, rfl⟩
  · by_cases hm : m = 1
    · have hfilter : x.shape.filter (· ≠ 1) = [n] := by
        rw [hy, hm]
        simp [hn]
      refine .inr ⟨hm, ?_⟩
      rw [Tensor.squeeze, hfilter]
    · have hfilter : x.shape.filter (· ≠ 1) = x.shape := by
        rw [hy]
        simp [hn, hm]
      refine .inl ?_
      rw [Tensor.squeeze, hfilter, Tensor.reshape_self]
  · refine .inr ⟨hone, ?_⟩
    have hself := Tensor.reshape_self (y.reshape [n])
    rw [Tensor.squeeze, Tensor.shape_reshape, hvector]
    exact hself

/-- The moments of a sequence feed the steps, one after the other. -/
structure Layer.Splits (l : Layer R) (ng : Ngraph) (M : Meaning R) (inputSplit : Node)
    (times : Nat) (x : Tensor R) : Prop where
  shape : x.shape = [times, l.batch, l.inputSize]
  parts : ∀ t < times, (inputSplit.output t).tensor M = x.slice 0 (t * 1) 1
  type : ng.getElementType inputSplit = l.elementType

omit [LinearOrder R] in
theorem denote_noAxes (ht : M.Transposes) : noAxes.denote M 0 = Tensor.ofList [] := by
  have hconstant := ht.constant .i32 []
  simpa [noAxes, Node.denote, Node.denoteAll] using hconstant

omit [LinearOrder R] in
theorem gives_noAxes (hng : ng.ChecksShapes M) :
    Gives (answer ng) nodes (createConstNode .i32 [0] []) (· = noAxes) := by
  have hbuilds : Gives (answer ng) nodes (createConstNode .i32 [0] []) fun node => node = noAxes :=
    gives_const hng rfl rfl
  exact hbuilds

/-- The output is the input of a step once it is squeezed. -/
structure Layer.Reads (l : Layer R) (ng : Ngraph) (M : Meaning R) (output : Output)
    (x : Tensor R) : Prop where
  shape : x.shape = [l.batch, l.inputSize]
  squeezed : RowOf l.batch l.inputSize (output.tensor M).squeeze x
  type : output.type ng = l.elementType

omit [LinearOrder R] in
theorem gives_squeeze (hM : M.Recurs) (ht : M.Transposes) (hng : ng.ChecksShapes M)
    {output : Output} {x : Tensor R} (h : l.Reads ng M output x) :
    Gives (answer ng) nodes (makeShared .squeeze [output, noAxes]) fun node =>
      l.Feeds ng M (node, 0) x := by
  refine gives_make (hng.squeeze output) ⟨h.shape, ?_, ?_⟩
  · have hnode : Output.tensor M (Node.mk .squeeze [output, (noAxes, 0)], 0) =
        (output.tensor M).squeeze := by
      rw [Output.tensor, Node.denote_mk_two, denote_noAxes ht]
      exact hM.squeeze _
    rw [hnode]
    exact h.squeezed
  · rw [Output.type, hng.types.keeps _ _ _ rfl, h.type]

omit [LinearOrder R] in
/-- A part of the sequence is the input of a step once its axes of size one are
gone. -/
theorem Layer.Splits.reads {inputSplit : Node} {times : Nat} {x : Tensor R}
    (h : l.Splits ng M inputSplit times x) (hsize : l.inputSize ≠ 1) {t : Nat} (ht : t < times) :
    l.Reads ng M (inputSplit.output t) (x.atTime true t) := by
  have hsequence : x.shape = Tensor.sequenceShape true times l.batch l.inputSize := h.shape
  have hmoment := Tensor.shape_atTime hsequence t
  have hpart : (x.slice 0 (t * 1) 1).shape = 1 :: [l.batch, l.inputSize] := by
    rw [Tensor.shape_slice, h.shape]
    rfl
  refine ⟨hmoment, ?_, h.type⟩
  rw [h.parts t ht, ← Tensor.squeeze_reshape hpart, Tensor.reshape_slice h.shape]
  exact RowOf.squeeze hsize hmoment (.inl rfl)

/-- **The loop over the time steps.**  From the state after `s` inputs, `n` steps give
the states after them. -/
theorem gives_steps (hM : M.Recurs) (hadd : M.AddsBias) (ht : M.Transposes)
    (hng : ng.ChecksShapes M) (hsize : l.inputSize ≠ 1) {inputSplit W recurrent bias : Node}
    {activationFn : Int} (hl : l.Given ng M W recurrent bias activationFn) {times : Nat}
    {x h : Tensor R} (hsplit : l.Splits ng M inputSplit times x)
    (hh : h.shape = [l.batch, l.units]) (n s : Nat) (hbound : s + n ≤ times) {hidden : Node}
    (hhidden : hidden.Carries ng M l.elementType (l.state (x.atTime true) h s)) :
    Gives (answer ng) nodes
      (UnidirectionalSequenceRNN.steps inputSplit W recurrent bias activationFn (List.range' s n)
        hidden)
      (CarriesAll ng M l.elementType
        ((List.range' s n).map fun t => l.state (x.atTime true) h (t + 1))) := by
  induction n generalizing s hidden with
  | zero => exact gives_pure .nil
  | succ n ih =>
      have hread := hsplit.reads hsize (t := s) (by omega)
      have hstate : (l.state (x.atTime true) h s).shape = [l.batch, l.units] :=
        Layer.shape_state hh s
      rw [List.range'_succ]
      unfold UnidirectionalSequenceRNN.steps
      refine (gives_noAxes hng).bind ?_
      intro _ heq
      subst heq
      apply (gives_squeeze hM ht hng hread).bind
      intro input hinput
      apply (gives_rnnStep hM hadd hng hinput hl hhidden hstate).bind
      intro outNode hout
      exact (ih (s + 1) (by omega) hout).bind fun rest hrest => gives_pure (.cons hout hrest)

/-! ### Inputs of one unit -/

omit [LinearOrder R] in
/-- The part of such a sequence is squeezed to its batch, or to a number. -/
theorem Layer.Splits.shape_squeeze {inputSplit : Node} {times : Nat} {x : Tensor R}
    (h : l.Splits ng M inputSplit times x) (hsize : l.inputSize = 1) {t : Nat} (ht : t < times) :
    ((inputSplit.output t).tensor M).squeeze.shape = [l.batch].filter (· ≠ 1) := by
  rw [h.parts t ht, Tensor.shape_squeeze, Tensor.shape_slice, h.shape, hsize]
  by_cases hone : l.batch = 1 <;> simp [hone]

omit [LinearOrder R] in
/-- ngraph refuses its product with the weights. -/
theorem refuses_rnnProducts (hng : ng.ChecksShapes M) (hsize : l.inputSize = 1) {output : Output}
    {W recurrent bias hidden : Node} (hW : W.Carries ng M l.elementType l.weights)
    (htype : output.type ng = l.elementType)
    (hshape : (output.tensor M).shape = [l.batch].filter (· ≠ 1)) :
    Returns (answer ng) nodes (rnnProducts output W recurrent bias hidden) fun _ => False := by
  have hfloat : (output.type ng).isFloat = true := by rw [htype, l.isFloat]
  have hsame : Output.type ng (W, 0) = output.type ng := by rw [Output.type, htype, hW.type]
  have hweights : (Output.tensor M (W, 0)).shape = [l.units, 1] := by
    rw [Output.tensor, hW.tensor, l.shape_weights, hsize]
  have hrank : (output.tensor M).shape.length ≤ 2 := by
    rw [hshape]
    exact (List.length_filter_le _ _).trans (Nat.le_succ 1)
  have hunfit : ¬ ((output.tensor M).shape = [1] ∨ ∃ m, (output.tensor M).shape = [m, 1]) := by
    rw [hshape]
    by_cases hone : l.batch = 1 <;> simp [hone]
  unfold rnnProducts
  refine Returns.bind (Q := fun _ => False) (returns_make_accepted fun haccepted => ?_) ?_
  · exact hunfit ((hng.matMul output (W, 0) hfloat hsame hweights hrank).mp haccepted)
  · exact fun _ h => h.elim

omit [LinearOrder R] in
theorem returns_squeezed (hM : M.Recurs) (ht : M.Transposes) (hng : ng.ChecksShapes M)
    {output : Output} :
    Returns (answer ng) nodes (makeShared .squeeze [output, noAxes]) fun node =>
      node.denote M 0 = (output.tensor M).squeeze ∧ ng.getElementType node = output.type ng := by
  refine returns_make ⟨?_, ?_⟩
  · rw [Node.denote_mk_two, denote_noAxes ht]
    exact hM.squeeze _
  · rw [hng.types.keeps _ _ _ rfl]

omit [LinearOrder R] in
/-- ngraph refuses the products of a squeezed part. -/
theorem Layer.Splits.refuses (hng : ng.ChecksShapes M) {inputSplit : Node} {times : Nat}
    {x : Tensor R} (h : l.Splits ng M inputSplit times x) (hsize : l.inputSize = 1) {t : Nat}
    (ht : t < times) {input W recurrent bias hidden : Node}
    (hinput : input.denote M 0 = ((inputSplit.output t).tensor M).squeeze ∧
      ng.getElementType input = (inputSplit.output t).type ng)
    (hW : W.Carries ng M l.elementType l.weights) :
    Returns (answer ng) nodes (rnnProducts input W recurrent bias hidden) fun _ => False := by
  rcases hinput with ⟨hdenote, htype⟩
  have hshape : (Output.tensor M (input, 0)).shape = [l.batch].filter (· ≠ 1) := by
    rw [Output.tensor, hdenote]
    exact h.shape_squeeze hsize ht
  exact refuses_rnnProducts hng hsize hW (htype.trans h.type) hshape

omit [LinearOrder R] in
/-- So the loop does not get past its first step. -/
theorem refuses_steps (hM : M.Recurs) (ht : M.Transposes) (hng : ng.ChecksShapes M)
    (hsize : l.inputSize = 1) {inputSplit W recurrent bias hidden : Node} {activationFn : Int}
    (hW : W.Carries ng M l.elementType l.weights) {times : Nat} {x : Tensor R}
    (hsplit : l.Splits ng M inputSplit times x) {t : Nat} (htime : t < times) (rest : List Nat) :
    Returns (answer ng) nodes
      (UnidirectionalSequenceRNN.steps inputSplit W recurrent bias activationFn (t :: rest) hidden)
      fun _ => False := by
  unfold UnidirectionalSequenceRNN.steps
  refine (gives_noAxes hng).returns.bind ?_
  intro _ heq
  subst heq
  apply (returns_squeezed hM ht hng).bind
  intro input hinput
  unfold rnnStep
  refine Returns.bind (Q := fun _ => False) ?_ fun _ h => h.elim
  exact (hsplit.refuses hng hsize htime hinput hW).bind fun _ h => h.elim

/-! ## Joining the steps -/

omit [LinearOrder R] in
theorem Node.denoteAll_first (outputs : List Node) :
    Node.denoteAll M (outputs.map (·, 0)) = outputs.map fun node => node.denote M 0 := by
  induction outputs with
  | nil => rfl
  | cons node outputs ih => rw [List.map_cons, Node.denoteAll, ih, Node.denoteOutput, List.map_cons]

omit [LinearOrder R] [CommRing R] in
theorem gives_shapeAt {node : Node} {i d : Nat} {Q : Nat → Prop}
    (hd : (ng.getShape node)[i]? = some d) (h : Q d) :
    Gives (answer ng) nodes (shapeAt node i) Q := by
  unfold shapeAt
  refine Gives.bind (Q := (· = ng.getShape node)) (gives_perform rfl rfl) ?_
  intro _ heq
  subst heq
  rw [hd]
  exact gives_pure h

omit [LinearOrder R] [CommRing R] in
theorem gives_divInt {a b : Int} {Q : Int → Prop} (hb : b ≠ 0) (h : Q (a.tdiv b)) :
    Gives (answer ng) nodes (divInt a b) Q := by
  unfold divInt faultIf
  rw [decide_eq_false hb]
  exact gives_pure h

omit [LinearOrder R] in
theorem denote_sizesConstant (ht : M.Transposes) (sizes : List Nat) :
    (sizesConstant sizes).denote M 0 = Tensor.ofList (sizes.map fun (d : Nat) => (d : R)) := by
  have hcast : ((fun (v : Int) => (v : R)) ∘ fun (d : Nat) => (d : Int)) =
      fun (d : Nat) => (d : R) := by
    funext d
    simp
  have hconstant := ht.constant .i32 (sizes.map fun (d : Nat) => (d : Int))
  rw [List.map_map, List.map_map, hcast, List.length_map] at hconstant
  rw [sizesConstant, Node.denote, Node.denoteAll]
  exact hconstant

omit [LinearOrder R] in
theorem denote_orderConstant (ht : M.Transposes) (axes : List Nat) :
    (orderConstant axes).denote M 0 = Tensor.ofList (axes.map fun (a : Nat) => (a : R)) := by
  have hcast : ((fun (v : Int) => (v : R)) ∘ fun (a : Nat) => (a : Int)) =
      fun (a : Nat) => (a : R) := by
    funext a
    simp
  have hconstant := ht.constant .i64 (axes.map fun (a : Nat) => (a : Int))
  rw [List.map_map, List.map_map, hcast, List.length_map] at hconstant
  rw [orderConstant, Node.denote, Node.denoteAll]
  exact hconstant

omit [LinearOrder R] in
/-- The outputs of the steps, joined: one matrix for every moment. -/
theorem gives_joinSteps (hM : M.Recurs) (ht : M.Transposes) (hng : ng.ChecksShapes M)
    (hinfer : ng.Infers M) {inputNode : Node} (hrank : (inputNode.denote M 0).shape.length = 3)
    {T : ElementType} {outputs : List Node} {states : List (Tensor R)} {batch width : Nat}
    (houtputs : CarriesAll ng M T states outputs)
    (hall : ∀ h ∈ states, h.shape = [batch, width]) {times : Nat}
    (hlength : states.length = times) (hpos : 0 < times) :
    Gives (answer ng) nodes (joinSteps inputNode times outputs) fun node =>
      node.Carries ng M T (Tensor.stack [batch, width] states) := by
  subst hlength
  have hdenote := houtputs.denote
  have hne : states ≠ [] := List.ne_nil_of_length_pos hpos
  obtain ⟨hshape, hstack⟩ := Tensor.reshape_concat hall hne
  have hoperands : outputs.map (·, 0) ≠ [] := by
    intro hnil
    apply hne
    rw [← hdenote, List.map_eq_nil_iff.mp hnil, List.map_nil]
  have hjoin : Joinable 0 ((outputs.map (·, 0)).map fun o => (Output.tensor M o).shape) := by
    refine ⟨[], [width], rfl, fun s hs => ⟨batch, ?_⟩⟩
    obtain ⟨o, ho, rfl⟩ := List.mem_map.mp hs
    obtain ⟨node, hnode, rfl⟩ := List.mem_map.mp ho
    exact hall _ (hdenote ▸ List.mem_map_of_mem hnode)
  have hjoin' : Joinable 0 (states.map fun x => x.shape) := by
    rw [← hdenote, List.map_map]
    rw [List.map_map] at hjoin
    exact hjoin
  have htype : ∀ o ∈ outputs.map (·, 0), Output.type ng o = T := by
    intro o ho
    obtain ⟨node, hnode, rfl⟩ := List.mem_map.mp ho
    exact houtputs.type node hnode
  have hsame : ∀ x ∈ outputs.map (·, 0), ∀ y ∈ outputs.map (·, 0),
      Output.type ng x = Output.type ng y := by
    intro x hx y hy
    rw [htype x hx, htype y hy]
  have hconcat : ng.getElementType (.mk (.concat 0) (outputs.map (·, 0))) = T := by
    obtain ⟨o, rest, hcons⟩ := List.exists_cons_of_ne_nil hoperands
    rw [hcons, hng.types.keeps _ _ _ rfl]
    exact htype o (hcons ▸ List.mem_cons_self)
  unfold joinSteps
  have hconcat' : (Node.mk (.concat 0) (outputs.map (·, 0))).denote M 0 =
      Tensor.concat 0 states := by
    rw [Node.denote, Node.denoteAll_first, hdenote]
    exact hM.concat 0 states hne hjoin'
  refine Gives.bind (Q := fun node => node.Carries ng M T (Tensor.concat 0 states))
    (gives_make (hng.concat 0 _ hoperands hjoin hsame) ⟨hconcat', hconcat⟩)
    fun joined hjoined => ?_
  have hsizes : ng.getShape joined = [states.length * batch, width] := by
    rw [hinfer, hjoined.tensor, hshape]
  refine Gives.bind (Q := (· = states.length * batch))
    (gives_shapeAt (by rw [hsizes]; rfl) rfl) fun rows hrows => ?_
  have hdivide : (rows : Int).tdiv states.length = batch := by
    rw [hrows, Nat.cast_mul, Int.mul_tdiv_cancel_left]
    omega
  refine Gives.bind (Q := (· = (batch : Int))) (gives_divInt (by omega) hdivide) ?_
  intro _ heq
  subst heq
  refine Gives.bind (Q := (· = width)) (gives_shapeAt (by rw [hsizes]; rfl) rfl)
    fun columns hcolumns => ?_
  rw [hcolumns]
  refine Gives.bind (Q := (· = ng.getShape inputNode)) (gives_perform rfl rfl) ?_
  intro _ heq
  subst heq
  rw [hinfer, hrank]
  have hconstant : Gives (answer ng) nodes
      (createConstNode .i32 [3] [.int states.length, .int batch, .int width])
      fun node => node = sizesConstant [states.length, batch, width] :=
    gives_const hng rfl rfl
  refine hconstant.bind ?_
  intro _ heq
  subst heq
  have hprod : [states.length, batch, width].prod = (joined.denote M 0).shape.prod := by
    rw [hjoined.tensor, hshape]
    simp [Nat.mul_assoc]
  refine gives_make (hng.reshape (joined, 0) _ hprod) ⟨?_, ?_⟩
  · rw [Node.denote_mk_two, denote_sizesConstant ht]
    exact (hM.reshape _ _ hprod).trans (hjoined.tensor ▸ hstack)
  · rw [hng.types.keeps _ _ _ rfl, Output.type, hjoined.type]

omit [LinearOrder R] in
/-- A transposition. -/
theorem gives_transpose (ht : M.Transposes) (hng : ng.ChecksShapes M) {type : ConversionType}
    {axes : List Nat} (haxes : type.order = axes.map fun (a : Nat) => (a : Int)) {T : ElementType}
    {node : Node} {x : Tensor R} (hnode : node.Carries ng M T x)
    (horder : IsOrder axes x.shape.length) :
    Gives (answer ng) nodes (transpose type node) fun r => r.Carries ng M T (x.transpose axes) := by
  have hconstant : Gives (answer ng) nodes
      (makeShared (.constant .i64 [type.order.length] (type.order.map .int)) [])
      fun orderNode => orderNode = orderConstant axes := by
    refine gives_make (hng.constant _ _ _ ?_) ?_
    · rw [List.length_map, List.prod_singleton]
    · rw [haxes, List.map_map, List.length_map]
      rfl
  have horder' : IsOrder axes (Output.tensor M (node, 0)).shape.length := by
    rw [Output.tensor, hnode.tensor]
    exact horder
  unfold transpose
  refine hconstant.bind ?_
  intro _ heq
  subst heq
  refine gives_make (hng.transpose _ _ horder') ⟨?_, ?_⟩
  · rw [Node.denote_mk_two, denote_orderConstant ht, hnode.tensor]
    exact ht.transpose _ _ horder
  · rw [hng.types.keeps _ _ _ rfl, Output.type, hnode.type]

omit [LinearOrder R] in
/-- Time and batch change places where the batch comes first. -/
theorem gives_transposeTime (ht : M.Transposes) (hng : ng.ChecksShapes M) {timeMajor : Bool}
    {T : ElementType} {node : Node} {x : Tensor R} (hnode : node.Carries ng M T x)
    (hrank : x.shape.length = 3) :
    Gives (answer ng) nodes (transposeUnless timeMajor .btsTbs node) fun r =>
      r.Carries ng M T (if timeMajor then x else x.transpose [1, 0, 2]) := by
  unfold transposeUnless
  refine gives_ite (fun htime => gives_pure ?_) fun htime => ?_
  · rwa [if_pos htime]
  · rw [if_neg htime]
    refine gives_transpose ht hng rfl hnode ?_
    rw [hrank]
    decide

/-- The constant `Split` takes its axis from. -/
def timeAxis : Node := .mk (.constant .i32 [] [.int 0]) []

omit [LinearOrder R] in
/-- The moments of the input, cut out. -/
theorem gives_split (hM : M.Recurs) (hng : ng.ChecksShapes M) {input : Node} {times : Nat}
    (hpos : 0 < times) {x : Tensor R} (hinput : input.Carries ng M l.elementType x)
    (hx : x.shape = [times, l.batch, l.inputSize]) :
    Gives (answer ng) nodes (makeShared (.split times) [input, timeAxis]) fun node =>
      l.Splits ng M node times x := by
  have hshape : (Output.tensor M (input, 0)).shape = [times, l.batch, l.inputSize] := by
    rw [Output.tensor, hinput.tensor, hx]
  have hrank : [times, l.batch, l.inputSize].length = 3 := rfl
  refine gives_make (hng.split _ _ times 1 0 rfl ?_ ?_ hpos ?_) ⟨hx, fun t htime => ?_, ?_⟩
  · rw [hshape, hrank]
    decide
  · rw [hshape, hrank]
    decide
  · rw [hshape, Nat.mul_one]
    rfl
  · have hpart := hM.split x 0 times 1 t trivial
    rw [hx, hrank] at hpart
    have hcut := hpart (by decide) (by decide) (Nat.mul_one times).symm htime
    rw [Node.output, Output.tensor, Node.denote_mk_two, hinput.tensor]
    exact hcut
  · rw [hng.types.keeps _ _ _ rfl, Output.type, hinput.type]

end Nodes

/-! ## A meaning with all of them -/

section Reference

variable {R : Type} [CommRing R] [LinearOrder R] [FloorRing R]

/-- `reference`, with the operations of the layers. -/
def unrolledReference (inputs : Nat → Tensor R) : Meaning R
  | .split numSplits, [x, axis], k =>
      let along := normalAxis x.shape.length ⌊axis.get []⌋
      let size := x.shape.getD along 0 / numSplits
      x.slice along (k * size) size
  | .squeeze, [x, _], _ => x.squeeze
  | .matMul false true, [x, w], _ =>
      match x.shape with
      | [k] => ((x.reshape [1, k]).mulTransposed w).reshape [w.shape.getD 0 0]
      | _ => x.mulTransposed w
  | .concat axis, xs, _ => Tensor.concat axis.toNat xs
  | .reshape false, [x, target], _ => x.reshape (naturals target)
  | op, args, index => reference inputs op args index

/-- Whether a product with a transposed matrix is defined. -/
def fitsProduct : List Nat → List Nat → Bool
  | [k], [_, k'] | [_, k], [_, k'] => k = k'
  | _, _ => false

/-- The element type of a node. -/
def Node.elementType : Node → ElementType
  | .mk (.constant type _ _) _ | .mk (.parameter _ type _) _ => type
  | .mk _ ((node, _) :: _) => node.elementType
  | .mk _ [] => .undefined

/-- ngraph with the shapes of a meaning, refusing products that do not fit. -/
def Ngraph.fitting (M : Meaning R) : Ngraph :=
  { Ngraph.ofMeaning M with
    getElementType := Node.elementType
    accepts := fun op args =>
      match op, args with
      | .matMul false true, [x, w] => fitsProduct (x.tensor M).shape (w.tensor M).shape
      | _, _ => true }

variable {inputs : Nat → Tensor R}

omit [LinearOrder R] [FloorRing R] in
theorem Ngraph.fitting_infers (M : Meaning R) : (Ngraph.fitting M).Infers M := fun _ => rfl

omit [LinearOrder R] [FloorRing R] in
theorem Ngraph.fitting_infersTypes (M : Meaning R) : (Ngraph.fitting M).InfersTypes where
  constant _ _ _ := rfl
  keeps op x args hop := by
    rcases x with ⟨node, index⟩
    cases op <;> first | rfl | cases hop

omit [LinearOrder R] [FloorRing R] in
theorem Ngraph.fitting_checksShapes (M : Meaning R) : (Ngraph.fitting M).ChecksShapes M where
  types := fitting_infersTypes M
  constant _ _ _ _ := rfl
  transpose _ _ _ := rfl
  split _ _ _ _ _ _ _ _ _ _ := rfl
  squeeze _ := rfl
  matMul x w n k _ _ hw hx := by
    have haccepts : (Ngraph.fitting M).accepts (.matMul false true) [x, w] =
        fitsProduct (x.tensor M).shape (w.tensor M).shape := rfl
    rw [haccepts, hw]
    match (x.tensor M).shape, hx with
    | [], _ => simp [fitsProduct]
    | [_], _ => simp [fitsProduct]
    | [_, _], _ => simp [fitsProduct]
  add _ _ _ _ _ := rfl
  relu _ _ := rfl
  clamp _ _ _ _ _ := rfl
  concat _ _ _ _ _ := rfl
  reshape _ _ _ := rfl

variable [IsStrictOrderedRing R]

theorem unrolledReference_transposes : (unrolledReference inputs).Transposes := by
  have hreference : (reference inputs).Transposes := reference_transposes
  exact ⟨hreference.constant, hreference.transpose⟩

theorem unrolledReference_addsBias : (unrolledReference inputs).AddsBias := by
  have hreference : (reference inputs).AddsBias := reference_addsBias
  exact ⟨hreference.reshape, hreference.add, hreference.relu, hreference.clamp⟩

theorem unrolledReference_recurs : (unrolledReference inputs).Recurs where
  split x axis numSplits size k _ _ _ hsize hk := by
    have hpositive : 0 < numSplits := by omega
    have hscalar : (unrolledReference inputs (.constant .i32 [] [.int axis]) [] 0).get [] =
        (axis : R) := Tensor.get_ofFn inside_nil
    simp only [unrolledReference] at hscalar ⊢
    rw [hscalar, Int.floor_intCast, hsize, Nat.mul_div_cancel_left size hpositive]
  squeeze _ := rfl
  matMul x w m n k hx _ := by simp only [unrolledReference, hx]
  matMulRow x w n k hx hw :=
    ⟨[n], .inr rfl, by simp only [unrolledReference, hx, hw, List.getD_cons_zero]⟩
  concat axis xs _ _ := by simp only [unrolledReference, Int.toNat_natCast]
  reshape x target _ := by rw [unrolledReference, naturals_ofList]

end Reference

end NnHal
