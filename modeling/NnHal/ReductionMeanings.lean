import NnHal.EntrywiseMeanings
import NnHal.Reductions

/-!
# Reductions and normalizations over the real numbers

What the classes build that take lines of a tensor together.  `Softmax` shifts
its lines by their maximum before it takes the exponentials, and `LogSoftmax`
takes the logarithm of the sum alone; both denote NNAPI's functions.
-/

namespace NnHal

open Command Tensors Quantization

/-! ## A single entry on the right -/

theorem broadcastShape_one_right {shape : List Nat} (hrank : shape ≠ []) :
    Tensor.broadcastShape shape [1] = shape := by
  obtain ⟨d, ds, rfl⟩ := List.exists_cons_of_ne_nil hrank
  have hmax : max (ds.length + 1) 1 = ds.length + 1 := by omega
  have hreplicate : List.replicate ds.length 1 ++ [1] = List.replicate (d :: ds).length 1 := by
    rw [List.length_cons, List.replicate_succ']
  unfold Tensor.broadcastShape
  simp only [List.length_cons, List.length_nil, Nat.zero_add, hmax, Nat.add_sub_cancel,
    Nat.sub_self, List.replicate_zero, List.nil_append]
  rw [hreplicate, Tensor.zipWith_ones]

/-- A function of every entry and the one entry of a vector. -/
theorem broadcast_one_right {f : ℝ → ℝ → ℝ} {c x : Tensor ℝ} {v : ℝ}
    (hc : c.shape = [1] ∧ c.get [0] = v) (hrank : x.shape ≠ []) :
    Tensor.broadcast f x c = x.map fun u => f u v := by
  have hshape : Tensor.broadcastShape x.shape c.shape = x.shape := by
    rw [hc.1, broadcastShape_one_right hrank]
  apply Tensor.ext_inside hshape
  intro index hin
  have hin' : Inside x.shape index := by
    rw [← hshape]
    exact hin
  have hindex : index ≠ [] := by
    intro hnil
    have hlength := hin'.length_eq
    rw [hnil] at hlength
    exact hrank (List.length_eq_zero_iff.mp hlength.symm)
  rw [Tensor.get_broadcast hin, Tensor.get_map hin', Tensor.alignIndex_self hin', hc.1,
    alignIndex_one hindex, hc.2]

/-- A reduced tensor broadcasts to the original one. -/
theorem broadcastable_set_one (shape : List Nat) (axis : Nat) :
    Broadcastable shape (shape.set axis 1) := by
  intro k
  by_cases hk : k < shape.length
  · have hk' : k < (shape.set axis 1).length := by rwa [List.length_set]
    rw [List.getD_eq_getElem?_getD, List.getD_eq_getElem?_getD, List.getElem?_reverse hk,
      List.getElem?_reverse hk', List.length_set, List.getElem?_set]
    split
    · exact .inr (.inr (by split <;> rfl))
    · exact .inl rfl
  · rw [List.getD_eq_default _ _ (by simpa using hk)]
    exact .inr (.inl rfl)

/-! ## Lines of exponentials -/

section Lines

variable {x : Tensor ℝ} {axis : Nat} {index : List Int}

theorem line_ne_nil (hin : Inside x.shape index) (haxis : axis < x.shape.length) :
    x.line axis index ≠ [] := by
  have hsize : 0 < x.shape.getD axis 0 := by
    have hpos := Inside.zero_notMem hin
    rw [List.getD_eq_getElem _ _ haxis]
    exact Nat.pos_of_ne_zero fun hzero => hpos (hzero ▸ List.getElem_mem haxis)
  intro hnil
  have hlength := congrArg List.length hnil
  simp only [Tensor.line, List.length_map, List.length_range, List.length_nil] at hlength
  omega

theorem sum_exp_pos {l : List ℝ} (h : l ≠ []) (f : ℝ → ℝ) :
    0 < (l.map fun v => Real.exp (f v)).sum := by
  apply List.sum_pos
  · intro v hv
    obtain ⟨u, -, rfl⟩ := List.mem_map.mp hv
    exact Real.exp_pos _
  · simpa using h

/-- A shift of a line leaves the quotient of its exponentials as it is. -/
theorem exp_shift_div (beta m u : ℝ) (l : List ℝ) :
    Real.exp ((u - m) * beta) / (l.map fun v => Real.exp ((v - m) * beta)).sum =
      Real.exp (beta * u) / (l.map fun v => Real.exp (beta * v)).sum := by
  have hfactor : ∀ v, Real.exp ((v - m) * beta) = Real.exp (beta * v) * Real.exp (-(beta * m)) := by
    intro v
    rw [← Real.exp_add]
    ring_nf
  have hsum : (l.map fun v => Real.exp ((v - m) * beta)).sum =
      (l.map fun v => Real.exp (beta * v)).sum * Real.exp (-(beta * m)) := by
    rw [← List.sum_map_mul_right]
    exact congrArg List.sum (List.map_congr_left fun v _ => hfactor v)
  rw [hfactor, hsum, mul_div_mul_right _ _ (Real.exp_pos _).ne']

end Lines

/-! ## The classes -/

section Classes

variable {M : Meaning ℝ} {ng : Ngraph} {nodes : NgraphNodes} {self : OperationsBase}
variable {g : Arguments} {y : Tensor ℝ}

/-- A tensor of rank one that holds integers. -/
theorem vector_eq_some {k : Nat} {axes : List Int} (h : g.vector k = some axes) :
    g.tensor k = some (Tensor.ofList (axes.map fun (a : Int) => (a : ℝ))) := by
  obtain ⟨t, ht, h⟩ := Option.bind_eq_some_iff.mp h
  split at h
  · next hlist =>
    obtain rfl := Option.some.inj h
    rw [ht, ← hlist]
  · cases h

/-- A reduction of a node along the axes of another. -/
theorem returns_reduction (hM : M.Computable) (op : NodeOp) {keepDims : Bool} {f : Reduction}
    (hop : op.reduction = some (keepDims, f)) {node axesNode : Node} {x : Tensor ℝ}
    {axes : List Int} (hnode : node.denote M 0 = x)
    (haxes : axesNode.denote M 0 = Tensor.ofList (axes.map fun (a : Int) => (a : ℝ)))
    (hf : f.DefinedOn x axes) :
    Returns (answer ng) nodes (makeShared op [node, axesNode]) fun r =>
      r.denote M 0 = x.reduce f.apply keepDims (axes.map (normalAxis x.shape.length)) := by
  apply returns_make
  rw [Node.denote_mk_two, hnode, haxes, hM.reduce op keepDims f hop x axes hf]

/-- The parts of a reduction that has a result. -/
theorem reduction_eq_some {f : Reduction} {keepDims : Option Bool}
    (h : g.reduction f keepDims = some y) :
    ∃ x axes keep, g.tensor 0 = some x ∧ g.vector 1 = some axes ∧ keepDims = some keep ∧
      f.DefinedOn x axes ∧ y = x.reduce f.apply keep (axes.map (normalAxis x.shape.length)) := by
  obtain ⟨x, hx, h⟩ := Option.bind_eq_some_iff.mp h
  obtain ⟨axes, haxes, h⟩ := Option.bind_eq_some_iff.mp h
  obtain ⟨keep, hkeep, h⟩ := Option.bind_eq_some_iff.mp h
  split at h
  · next hf => exact ⟨x, axes, keep, hx, haxes, hkeep, hf, (Option.some.inj h).symm⟩
  · cases h

/-- A member of the `Reduce` family. -/
theorem reduceNode_denotes (hM : M.Computable) (hg : self.Meets ng M nodes g)
    (op : Bool → NodeOp) {f : Reduction} (hop : ∀ keep, (op keep).reduction = some (keep, f))
    (h : g.reduced f = some y) :
    Returns (answer ng) nodes (self.reduceNode op) fun node => node.denote M 0 = y := by
  obtain ⟨x, axes, keep, hx, haxes, hkeep, hf, rfl⟩ := reduction_eq_some h
  obtain ⟨v, hv, rfl⟩ := Option.map_eq_some_iff.mp hkeep
  apply (hg.tensor 0 x hx).bind
  intro input hinput
  apply (hg.tensor 1 _ (vector_eq_some haxes)).bind
  intro axesNode haxesNode
  apply (hg.parse hv).bind
  intro keepDims heq
  subst heq
  exact returns_reduction hM _ (hop _) hinput haxesNode hf

theorem Mean.createNode_denotes (hM : M.Computable) (hg : self.Meets ng M nodes g)
    (h : g.mean = some y) :
    Returns (answer ng) nodes (Mean.createNode self) fun node => node.denote M 0 = y := by
  obtain ⟨x, axes, keep, hx, haxes, hkeep, hf, rfl⟩ := reduction_eq_some h
  obtain ⟨v, hv, rfl⟩ := Option.map_eq_some_iff.mp hkeep
  apply (hg.tensor 0 x hx).bind
  intro input hinput
  apply (hg.tensor 1 _ (vector_eq_some haxes)).bind
  intro axesNode haxesNode
  apply (hg.parse hv).bind
  intro keepDims heq
  subst heq
  exact returns_reduction hM _ rfl hinput haxesNode hf

/-! ### Normalizations -/

/-- A real parameter is a finite number of the model. -/
theorem real_eq_some {T : CType} {k : Nat} {v : ℝ} (h : g.real T k = some v) :
    ∃ n, g.number T k = some n ∧ (T.scalar n).Finite ∧ (T.scalar n).real = v := by
  obtain ⟨n, hn, h⟩ := Option.bind_eq_some_iff.mp h
  split at h
  · next hfinite => exact ⟨n, hn, hfinite, Option.some.inj h⟩
  · cases h

/-- The entries of a constant of one number are that number. -/
theorem denote_oneNumber (hM : M.Computable) {type : ElementType} {shape : List Nat} {s : Scalar}
    (hprod : shape.prod = 1) (hs : s.Finite ∧ type.Holds s.real) :
    (Node.mk (.constant type shape [s]) []).denote M 0 = constantTensor shape [s] := by
  have hall : ∀ s' ∈ [s], s'.Finite ∧ type.Holds s'.real := by
    intro s' hs'
    rwa [List.mem_singleton.mp hs']
  rw [Node.denote, Node.denoteAll, hM.number type shape [s] hprod.symm hall]

theorem returns_betaNode (hM : M.Computable) (hg : self.Meets ng M nodes g) {shape : List Nat}
    (hprod : shape.prod = 1) {beta : ℝ} (h : g.beta = some beta) :
    Returns (answer ng) nodes (self.betaNode shape) fun node =>
      ∃ s : Scalar, s.real = beta ∧ node.denote M 0 = constantTensor shape [s] := by
  unfold Arguments.beta at h
  rw [hg.operand] at h
  unfold OperationsBase.betaNode OperationsBase.checkInputOperandType
  by_cases hhalf : (self.getInputOperand 0).type = .tensorFloat16
  · rw [if_pos hhalf] at h
    rw [if_pos (decide_eq_true hhalf)]
    obtain ⟨n, hn, hfinite, rfl⟩ := real_eq_some h
    apply (hg.parse hn).bind
    intro v hv
    subst hv
    exact returns_const ⟨_, rfl, denote_oneNumber hM hprod ⟨hfinite, trivial⟩⟩
  · rw [if_neg hhalf] at h
    rw [if_neg (by simpa using hhalf)]
    obtain ⟨n, hn, hfinite, rfl⟩ := real_eq_some h
    apply (hg.parse hn).bind
    intro v hv
    subst hv
    exact returns_const ⟨_, rfl, denote_oneNumber hM hprod ⟨hfinite, trivial⟩⟩

theorem returns_axisNode (hM : M.Computable) (hg : self.Meets ng M nodes g) {count k : Nat}
    {axis : Int} (h : g.lastAxis count k = some axis) :
    Returns (answer ng) nodes (self.axisNode count k) fun node =>
      node.denote M 0 = Tensor.ofList ([axis].map fun (a : Int) => (a : ℝ)) := by
  have hconstant : Returns (answer ng) nodes (createConstNode .i32 [1] [.int axis]) fun node =>
      node.denote M 0 = Tensor.ofList ([axis].map fun (a : Int) => (a : ℝ)) :=
    returns_const (hM.constant .i32 [axis])
  unfold Arguments.lastAxis at h
  rw [hg.count] at h
  unfold OperationsBase.axisNode
  by_cases hcount : self.inputsSize = count
  · rw [if_pos hcount] at h
    rw [if_pos hcount]
    apply (hg.parse h).bind
    intro v hv
    rw [hv]
    exact hconstant
  · rw [if_neg hcount] at h
    obtain rfl := Option.some.inj h
    rw [if_neg hcount]
    refine Returns.bind (Q := (· = (-1 : Int))) (returns_pure rfl) ?_
    intro v hv
    rw [hv]
    exact hconstant

/-- What a reduction of one line needs. -/
theorem definedOn_axis {x : Tensor ℝ} {axis : Int} (h : Arguments.HasAxis x axis)
    (f : List ℝ → ℝ) : (Reduction.total f).DefinedOn x [axis] := by
  refine ⟨h.1, fun _ _ => trivial, ?_, List.nodup_singleton _⟩
  intro a ha
  rw [List.mem_singleton.mp ha]
  exact h.2

/-- A reduction along one axis that is kept. -/
theorem returns_reduceLine (hM : M.Computable) (op : Bool → NodeOp) {f : List ℝ → ℝ}
    (hop : (op true).reduction = some (true, .total f)) {node axisNode : Node} {x : Tensor ℝ}
    {axis : Int} (hnode : node.denote M 0 = x)
    (haxis : axisNode.denote M 0 = Tensor.ofList ([axis].map fun (a : Int) => (a : ℝ)))
    (h : Arguments.HasAxis x axis) :
    Returns (answer ng) nodes (makeShared (op true) [node, axisNode]) fun r =>
      r.denote M 0 = x.reduceAxis f (normalAxis x.shape.length axis) :=
  returns_reduction hM _ hop hnode haxis (definedOn_axis h f)

/-- Broadcasting a reduced tensor. -/
theorem definedOn_reduceAxis {f : Pairwise} {x z : Tensor ℝ} {axis : Nat} {l : List ℝ → ℝ}
    (hshape : z.shape = x.shape)
    (hf : ∀ index, Inside x.shape index → f.domain (x.get index) (l (z.line axis index))) :
    f.DefinedOn x (z.reduceAxis l axis) := by
  refine ⟨?_, fun index hin => ?_⟩
  · rw [Tensor.shape_reduceAxis, hshape]
    exact broadcastable_set_one _ _
  · rw [Tensor.shape_reduceAxis, hshape, broadcastShape_set_one] at hin
    rw [Tensor.alignIndex_self hin, Tensor.shape_reduceAxis, hshape, alignIndex_set_one hin,
      Tensor.get_reduceAxis (by rw [hshape]; exact hin.set_one), Tensor.line_set]
    exact hf index hin

theorem Softmax.createNode_denotes (hM : M.Computable) (hg : self.Meets ng M nodes g)
    (h : g.softmax = some y) :
    Returns (answer ng) nodes (Softmax.createNode self) fun node => node.denote M 0 = y := by
  obtain ⟨x, hx, h⟩ := Option.bind_eq_some_iff.mp h
  obtain ⟨beta, hbeta, h⟩ := Option.bind_eq_some_iff.mp h
  obtain ⟨axis, haxis, h⟩ := Option.bind_eq_some_iff.mp h
  split at h
  case isFalse => cases h
  next hhas =>
  obtain rfl := Option.some.inj h
  have hlt : normalAxis x.shape.length axis < x.shape.length := normalAxis_lt hhas.2.1 hhas.2.2
  generalize haxis' : normalAxis x.shape.length axis = a at hlt ⊢
  have hrank : x.shape ≠ [] := List.ne_nil_of_length_pos (by omega)
  apply (hg.tensor 0 x hx).bind
  intro input hinput
  apply (returns_betaNode hM hg rfl hbeta).bind
  intro betaNode hbetaNode
  obtain ⟨s, hs, hbetaNode⟩ := hbetaNode
  have hone : (betaNode.denote M 0).shape = [1] ∧ (betaNode.denote M 0).get [0] = beta := by
    rw [hbetaNode]
    exact ⟨rfl, (Tensor.get_ofFn (by decide)).trans hs⟩
  apply (returns_axisNode hM hg haxis).bind
  intro axisNode haxisNode
  apply (returns_reduceLine hM .reduceMax rfl hinput haxisNode hhas).bind
  intro max hmax
  rw [haxis'] at hmax
  -- every line is shifted by its maximum
  refine Returns.bind (Q := fun node => node.denote M 0 =
    Tensor.ofFn x.shape fun index => x.get index - largest (x.line a index)) ?_ fun sub hsub => ?_
  · apply (returns_pairwise hM .subtract rfl hinput hmax
      (definedOn_reduceAxis rfl fun _ _ => trivial)).mono
    intro node hnode
    rw [hnode, Tensor.broadcast_reduceAxis rfl]
    rfl
  refine Returns.bind (Q := fun node => node.denote M 0 = Tensor.ofFn x.shape fun index =>
    (x.get index - largest (x.line a index)) * beta) ?_ fun mul hmul => ?_
  · have hdefined : Pairwise.mul.DefinedOn (sub.denote M 0) (betaNode.denote M 0) := by
      apply definedOn_total_pair
      rw [hone.1]
      exact (broadcastable_one _).symm
    have hsubRank : (sub.denote M 0).shape ≠ [] := by rwa [hsub]
    apply (returns_pairwise hM .multiply rfl rfl rfl hdefined).mono
    intro node hnode
    rw [hnode, broadcast_one_right hone hsubRank, hsub, Tensor.map_ofFn]
    rfl
  apply (returns_entrywise hM .exp rfl hmul definedOn_total).bind
  intro exp hexp
  rw [Tensor.map_ofFn] at hexp
  -- the exponentials of the shifted entries
  replace hexp : exp.denote M 0 = Tensor.ofFn x.shape fun index =>
      Real.exp ((x.get index - largest (x.line a index)) * beta) := hexp
  have hexpAxis : Arguments.HasAxis (exp.denote M 0) axis := by
    rw [hexp]
    exact hhas
  apply (returns_reduceLine hM .reduceSum rfl rfl haxisNode hexpAxis).bind
  intro sum hsum
  have hrankEq : (exp.denote M 0).shape.length = x.shape.length := by rw [hexp, Tensor.shape_ofFn]
  rw [hrankEq, haxis'] at hsum
  have hline : ∀ index, Inside x.shape index → (exp.denote M 0).line a index =
      (x.line a index).map fun v => Real.exp ((v - largest (x.line a index)) * beta) := by
    intro index hin
    apply Tensor.line_congr (by rw [hexp, Tensor.shape_ofFn]) hin
    intro other hother hsame
    have hlines : x.line a other = x.line a index := by
      rw [← Tensor.line_set a x other 0, hsame, Tensor.line_set]
    rw [hexp, Tensor.get_ofFn hother, hlines]
  have hshape : (exp.denote M 0).shape = x.shape := by rw [hexp, Tensor.shape_ofFn]
  have hdefined : Pairwise.div.DefinedOn (exp.denote M 0)
      ((exp.denote M 0).reduceAxis List.sum a) := by
    apply definedOn_reduceAxis rfl
    intro index hin
    rw [hshape] at hin
    rw [hline index hin]
    exact (sum_exp_pos (line_ne_nil hin hlt) _).ne'
  apply (returns_pairwise hM .divide rfl rfl hsum hdefined).mono
  intro node hnode
  rw [hnode, Tensor.broadcast_reduceAxis rfl, hshape]
  apply Tensor.ofFn_congr
  intro index hin
  rw [hline index hin, hexp, Tensor.get_ofFn hin]
  exact exp_shift_div beta _ _ _

theorem LogSoftmax.createNode_denotes (hM : M.Computable) (hg : self.Meets ng M nodes g)
    (h : g.logSoftmax = some y) :
    Returns (answer ng) nodes (LogSoftmax.createNode self) fun node => node.denote M 0 = y := by
  obtain ⟨z, hz, rfl⟩ := Option.map_eq_some_iff.mp h
  obtain ⟨x, hx, h⟩ := Option.bind_eq_some_iff.mp hz
  obtain ⟨beta, hbeta, h⟩ := Option.bind_eq_some_iff.mp h
  obtain ⟨axis, haxis, h⟩ := Option.bind_eq_some_iff.mp h
  split at h
  case isFalse => cases h
  next hhas =>
  obtain rfl := Option.some.inj h
  have hlt : normalAxis x.shape.length axis < x.shape.length := normalAxis_lt hhas.2.1 hhas.2.2
  generalize haxis' : normalAxis x.shape.length axis = a at hlt ⊢
  apply (hg.tensor 0 x hx).bind
  intro input hinput
  apply (returns_betaNode hM hg rfl hbeta).bind
  intro betaNode hbetaNode
  obtain ⟨s, hs, hbetaNode⟩ := hbetaNode
  have hone : (betaNode.denote M 0).shape = [] ∧ (betaNode.denote M 0).get [] = beta := by
    rw [hbetaNode]
    exact ⟨rfl, (Tensor.get_ofFn inside_nil).trans hs⟩
  apply (returns_axisNode hM hg haxis).bind
  intro axisNode haxisNode
  have hmulDefined : Pairwise.mul.DefinedOn x (betaNode.denote M 0) := by
    apply definedOn_total_pair
    rw [hone.1]
    exact broadcastable_nil _
  apply (returns_pairwise hM .multiply rfl hinput rfl hmulDefined).bind
  intro mul hmul
  rw [broadcast_number hone] at hmul
  apply (returns_entrywise hM .exp rfl hmul definedOn_total).bind
  intro exp hexp
  replace hexp : exp.denote M 0 = x.map fun v => Real.exp (beta * v) := by
    rw [hexp]
    refine (Tensor.map_map _ _ _).trans ?_
    simp only [Pairwise.mul, Pairwise.total, Entrywise.exp, Entrywise.total, mul_comm]
  apply (returns_reduceLine hM .reduceSum rfl hexp haxisNode hhas).bind
  intro sum hsum
  replace hsum : sum.denote M 0 =
      (x.map fun v => Real.exp (beta * v)).reduceAxis List.sum a := by
    rw [hsum, Tensor.shape_map, haxis']
  have hpositive : Entrywise.log.DefinedOn
      ((x.map fun v => Real.exp (beta * v)).reduceAxis List.sum a) := by
    intro index hin
    have hsize : 0 < x.shape.getD a 0 := by
      rw [List.getD_eq_getElem _ _ hlt]
      exact Nat.pos_of_ne_zero fun hzero => hhas.1 (hzero ▸ List.getElem_mem hlt)
    replace hin : Inside ((x.map fun v => Real.exp (beta * v)).shape.set a 1) index := hin
    have hfirst : Inside x.shape (index.set a 0) :=
      Inside.of_set_one hin ⟨le_refl 0, Int.natCast_pos.mpr hsize⟩
    rw [Tensor.get_reduceAxis hin, ← Tensor.line_set a _ index 0, Tensor.line_map _ hfirst]
    exact sum_exp_pos (line_ne_nil hfirst hlt) _
  apply (returns_entrywise hM .log rfl hsum hpositive).bind
  intro log hlog
  rw [Tensor.map_reduceAxis] at hlog
  have hsame : (x.map fun v => Real.exp (beta * v)).shape =
      (x.map fun u => Pairwise.mul.apply u beta).shape := rfl
  have hdefined : Pairwise.sub.DefinedOn (x.map fun u => Pairwise.mul.apply u beta)
      ((x.map fun v => Real.exp (beta * v)).reduceAxis
        (fun l => Entrywise.log.apply l.sum) a) :=
    definedOn_reduceAxis hsame fun _ _ => trivial
  apply (returns_pairwise hM .subtract rfl hmul hlog hdefined).mono
  intro node hnode
  rw [hnode, Tensor.broadcast_reduceAxis hsame, softmaxLines, Tensor.map_ofFn]
  apply Tensor.ofFn_congr
  intro index hin
  replace hin : Inside x.shape index := hin
  have hsum := sum_exp_pos (line_ne_nil hin hlt) fun v => beta * v
  rw [Tensor.get_map hin, Tensor.line_map _ hin, Real.log_div (Real.exp_pos _).ne' hsum.ne',
    Real.log_exp, mul_comm]
  rfl

/-- The squares of a tensor, line by line. -/
theorem sum_line_square {x : Tensor ℝ} {axis : Nat} {index : List Int}
    (hin : Inside x.shape index) :
    ((x.map fun v => v * v).line axis index).sum = squaredLength axis x index := by
  rw [Tensor.line_map _ hin]
  rfl

theorem L2Normalization.createNode_denotes (hM : M.Computable) (hg : self.Meets ng M nodes g)
    (h : g.l2Normalization = some y) :
    Returns (answer ng) nodes (L2Normalization.createNode self) fun node =>
      node.denote M 0 = y := by
  obtain ⟨x, hx, h⟩ := Option.bind_eq_some_iff.mp h
  obtain ⟨axis, haxis, h⟩ := Option.bind_eq_some_iff.mp h
  split at h
  case isFalse => cases h
  next hvalid =>
  rcases hvalid with ⟨hhas, hlength⟩
  obtain rfl := Option.some.inj h
  have hlt : normalAxis x.shape.length axis < x.shape.length := normalAxis_lt hhas.2.1 hhas.2.2
  generalize haxis' : normalAxis x.shape.length axis = a at hlt hlength ⊢
  apply (hg.tensor 0 x hx).bind
  intro input hinput
  apply (returns_axisNode hM hg haxis).bind
  intro axisNode haxisNode
  apply (returns_pairwise hM .multiply rfl hinput hinput
    (definedOn_total_pair (broadcastable_self _))).bind
  intro mul hmul
  rw [Tensor.broadcast_same] at hmul
  replace hmul : mul.denote M 0 = x.map fun v => v * v := hmul
  apply (returns_reduceLine hM .reduceSum rfl hmul haxisNode hhas).bind
  intro sum hsum
  rw [Tensor.shape_map, haxis'] at hsum
  have hroot : Entrywise.sqrt.DefinedOn ((x.map fun v => v * v).reduceAxis List.sum a) := by
    intro index hin
    replace hin : Inside ((x.map fun v => v * v).shape.set a 1) index := hin
    rw [Tensor.get_reduceAxis hin]
    apply List.sum_nonneg
    intro v hv
    obtain ⟨k, -, rfl⟩ := List.mem_map.mp hv
    by_cases hentry : Inside x.shape (index.set a (k : Int))
    · rw [Tensor.get_map hentry]
      exact mul_self_nonneg _
    · exact (Tensor.outside (x.map fun v => v * v) _ hentry).ge
  apply (returns_entrywise hM .sqrt rfl hsum hroot).bind
  intro sqrt hsqrt
  rw [Tensor.map_reduceAxis] at hsqrt
  have hsame : (x.map fun v => v * v).shape = x.shape := rfl
  have hdefined : Pairwise.div.DefinedOn x ((x.map fun v => v * v).reduceAxis
      (fun l => Entrywise.sqrt.apply l.sum) a) := by
    apply definedOn_reduceAxis hsame
    intro index hin
    rw [sum_line_square hin]
    exact (Real.sqrt_pos.mpr (hlength index hin)).ne'
  apply (returns_pairwise hM .divide rfl hinput hsqrt hdefined).mono
  intro node hnode
  rw [hnode, Tensor.broadcast_reduceAxis hsame]
  apply Tensor.ofFn_congr
  intro index hin
  rw [sum_line_square hin]
  rfl

end Classes

end NnHal
