import NnHal.BlockGraphs
import NnHal.Connections
import NnHal.NnapiShapes
import NnHal.ReductionMeanings
import NnHal.TargetShapes

/-!
# Operations on the shape over the real numbers

The classes that move entries compute a shape, a list of axes or two lists of
paddings from the constants of the model, and these are what NNAPI asks for: the
products that `Reshape` takes in 32 bits do not overflow, and `ChannelShuffle`
goes through rank four and back.
-/

namespace NnHal

open Command Tensors Quantization

/-! ## The documented operations -/

/-- A vector of axes or sizes. -/
noncomputable def vectorTensor (values : List Int) : Tensor ℝ :=
  Tensor.ofList (values.map fun (a : Int) => (a : ℝ))

/-- What ngraph's operations on the shape make of real tensors. -/
structure Meaning.Rearranges (M : Meaning ℝ) : Prop extends Meaning.MovesBlocks M where
  squeeze : ∀ (x : Tensor ℝ) (axes : List Int), axes ≠ [] → InRank x.shape.length axes →
    (∀ a ∈ axes.map (normalAxis x.shape.length), x.shape.getD a 0 = 1) →
    M .squeeze [x, vectorTensor axes] 0 =
      x.reshape (Tensor.dropAxes (axes.map (normalAxis x.shape.length)) x.shape)
  unsqueeze : ∀ (x : Tensor ℝ) (axis : Int), InRank (x.shape.length + 1) [axis] →
    M .unsqueeze [x, constantTensor [] [.int axis]] 0 =
      x.reshape (x.shape.insertIdx (normalAxis (x.shape.length + 1) axis) 1)
  /-- the axes that come after those of the tensor -/
  unsqueezeBehind : ∀ (x : Tensor ℝ) (k : Nat),
    M .unsqueeze
        [x, vectorTensor ((List.range' x.shape.length k).map fun (a : Nat) => (a : Int))] 0 =
      x.reshape (x.shape ++ List.replicate k 1)
  gather : ∀ (x positions : Tensor ℝ) (axis : Int), InRank x.shape.length [axis] →
    Positions (x.shape.getD (normalAxis x.shape.length axis) 0) positions →
    M .gather [x, positions, constantTensor [] [.int axis]] 0 =
      x.choose (normalAxis x.shape.length axis) positions.shape fun i => ⌊positions.get i⌋
  concat : ∀ (axis : Nat) (xs : List (Tensor ℝ)), Joinable axis (xs.map (·.shape)) →
    M (.concat axis) xs 0 = Tensor.concat axis xs
  split : ∀ (x : Tensor ℝ) (axis : Int) (count size k : Nat), InRank x.shape.length [axis] →
    x.shape.getD (normalAxis x.shape.length axis) 0 = count * size → k < count →
    M (.split count) [x, constantTensor [] [.int axis]] k =
      x.slice (normalAxis x.shape.length axis) (k * size) size
  pad : ∀ (x : Tensor ℝ) (heads tails : List Nat), heads.length = x.shape.length →
    tails.length = x.shape.length →
    M .pad [x, sizes heads, sizes tails] 0 = x.pad heads tails 0
  padWith : ∀ (x v : Tensor ℝ) (heads tails : List Nat), heads.length = x.shape.length →
    tails.length = x.shape.length → v.shape = [] →
    M .pad [x, sizes heads, sizes tails, v] 0 = x.pad heads tails (v.get [])
  shuffle : ∀ (x : Tensor ℝ) (axis groups : Nat), x.shape.length = 4 → axis < 4 → 0 < groups →
    groups ∣ x.shape.getD axis 0 →
    M (.shuffleChannels axis groups) [x] 0 = x.shuffle axis groups

/-! ## Nodes -/

section Nodes

variable {M : Meaning ℝ} {ng : Ngraph} {nodes : NgraphNodes}

theorem Node.denote_mk_three (M : Meaning ℝ) (op : NodeOp) (a b c : Node) :
    (Node.mk op [(a, 0), (b, 0), (c, 0)]).denote M 0 =
      M op [a.denote M 0, b.denote M 0, c.denote M 0] 0 := by
  simp only [Node.denote, Node.denoteAll, Node.denoteOutput]

/-- A constant without axes. -/
theorem returns_axis (hM : M.Computable) {axis : Int} (haxis : int32Range.Contains axis) :
    Returns (answer ng) nodes (createConstNode .i32 [] [.int axis]) fun node =>
      node.denote M 0 = constantTensor [] [.int axis] := by
  have hholds : ElementType.Holds .i32 (Scalar.int axis).real := by
    rw [real_int]
    exact ⟨int32Range, rfl, axis, haxis, rfl⟩
  exact returns_const (denote_oneNumber hM rfl ⟨trivial, hholds⟩)

/-- A constant vector. -/
theorem returns_vector (hM : M.Transposes) (type : ElementType) {values : List Int} {rank : Nat}
    (hrank : rank = values.length) :
    Returns (answer ng) nodes (createConstNode type [rank] (values.map .int)) fun node =>
      node.denote M 0 = vectorTensor values := by
  apply returns_const
  rw [Node.denote, Node.denoteAll, hrank]
  exact hM.constant type values

theorem vectorTensor_sizes (values : List Nat) :
    vectorTensor (values.map fun (a : Nat) => (a : Int)) = sizes values := by
  simp [vectorTensor, sizes, Function.comp_def]

/-- A list without negative entries. -/
theorem map_toNat_cast {l : List Int} (h : ∀ a ∈ l, 0 ≤ a) :
    (l.map Int.toNat).map (fun (a : Nat) => (a : Int)) = l := by
  rw [List.map_map]
  refine (List.map_congr_left fun a ha => ?_).trans (List.map_id l)
  exact Int.toNat_of_nonneg (h a ha)

end Nodes

/-! ## Changing the rank -/

section Rank

/-- Without zeros no leading product exceeds the whole one. -/
theorem exactProducts_of_prod {factors : List Int} (hpos : ∀ d ∈ factors, 0 < d)
    (hprod : factors.prod < 2 ^ 31) : ExactProducts factors := by
  intro k
  have hsplit : (factors.take k).prod * (factors.drop k).prod = factors.prod := by
    rw [← List.prod_append, List.take_append_drop]
  have hfront : 0 < (factors.take k).prod :=
    List.prod_pos fun d hd => hpos d (List.mem_of_mem_take hd)
  have hback : 0 < (factors.drop k).prod :=
    List.prod_pos fun d hd => hpos d (List.mem_of_mem_drop hd)
  have hle : (factors.take k).prod * 1 ≤ (factors.take k).prod * (factors.drop k).prod :=
    Int.mul_le_mul_of_nonneg_left hback (le_of_lt hfront)
  omega

/-- The product of the sizes that are given. -/
theorem given_eq_cast (target : List Int) :
    Reshape.given target = (((target.filter fun d => 0 ≤ d).map Int.toNat).prod : Nat) := by
  have hnonneg : ∀ d ∈ target.filter fun d => 0 ≤ d, 0 ≤ d := by
    intro d hd
    simpa using (List.mem_filter.mp hd).2
  rw [Reshape.given, ← prod_map_ofNat]
  exact congrArg List.prod (map_toNat_cast hnonneg).symm

theorem stretched_of_nonneg {entries : Nat} {l : List Int} (h : ∀ d ∈ l, 0 ≤ d) (known : Nat) :
    (l.map fun d => if d < 0 then entries / known else d.toNat) = l.map Int.toNat := by
  apply List.map_congr_left
  intro d hd
  rw [if_neg (Int.not_lt.mpr (h d hd))]

/-- The sizes that `Reshape` computes are those that are asked for. -/
theorem returns_outputDims {ng : Ngraph} {nodes : NgraphNodes} {dims : List Nat}
    {target : List Int} (hpos : 0 < dims.prod) (hsmall : dims.prod < 2 ^ 31) (hzero : 0 ∉ target)
    (hone : (target.filter fun d => d < 0).length ≤ 1)
    (hprod : (stretched dims.prod target).prod = dims.prod) :
    Returns (answer ng) nodes (Reshape.outputDims dims target)
      (· = (stretched dims.prod target).map fun (d : Nat) => (d : Int)) := by
  have hdims : ∀ d ∈ dims.map Int.ofNat, 0 < d := by
    intro d hd
    obtain ⟨e, he, rfl⟩ := List.mem_map.mp hd
    have hne : e ≠ 0 := by
      rintro rfl
      rw [List.prod_eq_zero he] at hpos
      exact absurd hpos (lt_irrefl 0)
    exact Int.natCast_pos.mpr (Nat.pos_of_ne_zero hne)
  have hin : ExactProducts (dims.map Int.ofNat) := by
    apply exactProducts_of_prod hdims
    rw [prod_map_ofNat]
    exact_mod_cast hsmall
  have hgiven := given_eq_cast target
  have hkept : ∀ d ∈ target.filter fun d => 0 ≤ d, 0 < d := by
    intro d hd
    obtain ⟨hmem, hle⟩ := List.mem_filter.mp hd
    have hne : d ≠ 0 := fun h => hzero (h ▸ hmem)
    have hle' : 0 ≤ d := by simpa using hle
    omega
  have hcases := Reshape.strechDim_cases target
  rcases hcases with ⟨hnone, hall⟩ | ⟨before, d, after, htarget, hsome, hd, hafter⟩
  · have hfilter : target.filter (fun d => 0 ≤ d) = target :=
      List.filter_eq_self.mpr fun d hd => by simpa using hall d hd
    have hshape : stretched dims.prod target = target.map Int.toNat :=
      stretched_of_nonneg hall _
    have hout : ExactProducts (target.filter fun d => 0 ≤ d) := by
      apply exactProducts_of_prod hkept
      have hcast : (target.filter fun d => 0 ≤ d).prod = (dims.prod : Int) := by
        rw [← hprod, hshape, ← prod_map_ofNat, hfilter]
        exact congrArg List.prod (map_toNat_cast hall).symm
      rw [hcast]
      exact_mod_cast hsmall
    rw [Reshape.outputDims_eq hin hout, hnone, hshape, map_toNat_cast hall]
    exact returns_pure rfl
  · -- the only negative entry
    have hbefore : ∀ e ∈ before, 0 ≤ e := by
      intro e he
      by_contra hneg
      have htwo : 2 ≤ (target.filter fun d => d < 0).length := by
        have hmem : e ∈ before.filter fun d => d < 0 := by
          rw [List.mem_filter]
          exact ⟨he, by simpa using hneg⟩
        have hpositive := List.length_pos_of_mem hmem
        rw [htarget, List.filter_append, List.filter_cons_of_pos (by simpa using hd),
          List.length_append, List.length_cons]
        omega
      omega
    have hknown : ∃ known, known = ((target.filter fun d => 0 ≤ d).map Int.toNat).prod := ⟨_, rfl⟩
    obtain ⟨known, hknown⟩ := hknown
    have hshape : stretched dims.prod target =
        before.map Int.toNat ++ (dims.prod / known) :: after.map Int.toNat := by
      unfold stretched
      rw [← hknown, htarget, List.map_append, List.map_cons, if_pos hd,
        stretched_of_nonneg hbefore, stretched_of_nonneg hafter]
    have hknownPos : 0 < known := by
      have hprodPos : 0 < (target.filter fun d => 0 ≤ d).prod := List.prod_pos hkept
      rw [← Reshape.given, hgiven, ← hknown] at hprodPos
      exact_mod_cast hprodPos
    have hquotient : known * (dims.prod / known) = dims.prod := by
      rw [hshape, List.prod_append, List.prod_cons] at hprod
      have hsplit : known = (before.map Int.toNat).prod * (after.map Int.toNat).prod := by
        rw [hknown, htarget, List.filter_append, List.filter_cons_of_neg (by simpa using hd),
          List.map_append, List.prod_append,
          List.filter_eq_self.mpr fun e he => by simpa using hbefore e he,
          List.filter_eq_self.mpr fun e he => by simpa using hafter e he]
      generalize dims.prod / known = rest at hprod ⊢
      calc known * rest = (before.map Int.toNat).prod * (rest * (after.map Int.toNat).prod) := by
            rw [hsplit]
            ring
        _ = dims.prod := hprod
    have hrest : 0 < dims.prod / known := by
      apply Nat.pos_of_ne_zero
      intro hnone
      rw [hnone, Nat.mul_zero] at hquotient
      omega
    have hle : known ≤ dims.prod := Nat.le_of_dvd hpos ⟨_, hquotient.symm⟩
    have hout : ExactProducts (target.filter fun d => 0 ≤ d) := by
      apply exactProducts_of_prod hkept
      rw [← Reshape.given, hgiven, ← hknown]
      exact_mod_cast lt_of_le_of_lt hle hsmall
    rw [Reshape.outputDims_eq hin hout, hsome]
    refine Returns.bind (Q := (· = ((dims.prod / known : Nat) : Int))) (returns_divInt ?_) ?_
    · rw [hgiven, ← hknown, ← Int.ofNat_tdiv]
    · intro value hvalue
      have hfits : toInt32 value = ((dims.prod / known : Nat) : Int) := by
        have hsize : dims.prod / known ≤ dims.prod := Nat.div_le_self _ _
        rw [hvalue, toInt32_of_range (Int.natCast_nonneg _) (by omega)]
      apply returns_pure
      rw [hfits, hshape, List.map_append, List.map_cons, map_toNat_cast hbefore,
        map_toNat_cast hafter, htarget]
      simp

variable {M : Meaning ℝ} {ng : Ngraph} {nodes : NgraphNodes} {self : OperationsBase}
variable {g : Arguments} {y : Tensor ℝ}

theorem Reshape.createNode_denotes (hM : M.Computable) (hg : self.Meets ng M nodes g)
    (h : g.reshape = some y) :
    Returns (answer ng) nodes (Reshape.createNode self) fun node => node.denote M 0 = y := by
  obtain ⟨x, hx, h⟩ := Option.bind_eq_some_iff.mp h
  obtain ⟨target, htarget, h⟩ := Option.bind_eq_some_iff.mp h
  dsimp only at h
  split at h
  · next hvalid =>
    obtain ⟨hdeclared, hpos, hsmall, hzero, hone, hprod⟩ := hvalid
    obtain rfl := Option.some.inj h
    have hdims : self.getInputOperandDimensions 0 = x.shape := by
      rw [← hdeclared, hg.operand]
      rfl
    apply (hg.parseVector htarget).bind
    intro outDims hout
    rw [hout, hdims]
    apply (hg.tensor 0 x hx).bind
    intro input hinput
    apply (returns_outputDims hpos hsmall hzero hone hprod).bind
    intro outDims hout
    apply (returns_vector hM.toTransposes .i32 rfl).bind
    intro shapeNode hshape
    rw [hout, vectorTensor_sizes] at hshape
    apply returns_make
    rw [Node.denote_mk_two, hinput, hshape, sizes, hM.reshape, Tensor.specialZero_of_pos]
    intro d hd hnone
    rw [hnone] at hd
    rw [List.prod_eq_zero hd] at hprod
    omega
  · cases h

theorem Transpose.createNode_denotes (hM : M.Computable) (hg : self.Meets ng M nodes g)
    (h : g.transpose = some y) :
    Returns (answer ng) nodes (Transpose.createNode self) fun node => node.denote M 0 = y := by
  obtain ⟨x, hx, h⟩ := Option.bind_eq_some_iff.mp h
  obtain ⟨order, horder, h⟩ := Option.bind_eq_some_iff.mp h
  split at h
  · next hvalid =>
    obtain ⟨hdeclared, hsome, hnonneg, hisOrder⟩ := hvalid
    obtain rfl := Option.some.inj h
    have hgiven : Transpose.hasOrder self = true := by
      have hdims : self.getInputOperandDimensions 1 = [order.length] := by
        rw [← hdeclared, hg.operand]
        rfl
      unfold Transpose.hasOrder OperationsBase.isZeroSizedInput
      rw [hdims]
      simpa using hsome
    apply (hg.tensor 0 x hx).bind
    intro input hinput
    rw [if_pos hgiven]
    apply (hg.tensor 1 _ (vector_eq_some horder)).bind
    intro orderNode horderNode
    have hcast : Tensor.ofList (order.map fun (a : Int) => (a : ℝ)) =
        Tensor.ofList ((order.map Int.toNat).map fun (a : Nat) => (a : ℝ)) := by
      have hsizes := vectorTensor_sizes (order.map Int.toNat)
      rw [map_toNat_cast hnonneg] at hsizes
      exact hsizes
    apply returns_make
    rw [Node.denote_mk_two, hinput, horderNode, hcast, hM.transpose x _ hisOrder]
  · cases h

theorem Squeeze.createNode_denotes (hM : M.Rearranges) (hg : self.Meets ng M nodes g)
    (h : g.squeeze = some y) :
    Returns (answer ng) nodes (Squeeze.createNode self) fun node => node.denote M 0 = y := by
  obtain ⟨x, hx, h⟩ := Option.bind_eq_some_iff.mp h
  obtain ⟨axes, haxes, h⟩ := Option.bind_eq_some_iff.mp h
  dsimp only at h
  split at h
  · next hvalid =>
    obtain ⟨hgiven, hsome, hrank, hones⟩ := hvalid
    obtain rfl := Option.some.inj h
    have hthere : self.isOmittedInput 1 = false := by
      have hlifetime : (self.getInputOperand 1).lifetime ≠ .noValue := by
        rw [← hg.operand]
        exact hgiven
      exact decide_eq_false hlifetime
    apply (hg.tensor 0 x hx).bind
    intro input hinput
    rw [if_pos (by simp [hthere])]
    apply (hg.tensor 1 _ (vector_eq_some haxes)).bind
    intro dims hdims
    apply returns_make
    rw [Node.denote_mk_two, hinput, hdims]
    exact hM.squeeze x axes hsome hrank hones
  · cases h

theorem ExpandDims.createNode_denotes (hM : M.Computable) (hr : M.Rearranges)
    (hg : self.Meets ng M nodes g) (h : g.expandDims = some y) :
    Returns (answer ng) nodes (ExpandDims.createNode self) fun node => node.denote M 0 = y := by
  obtain ⟨x, hx, h⟩ := Option.bind_eq_some_iff.mp h
  obtain ⟨axis, haxis, h⟩ := Option.bind_eq_some_iff.mp h
  split at h
  · next hvalid =>
    obtain rfl := Option.some.inj h
    apply (hg.tensor 0 x hx).bind
    intro input hinput
    apply (hg.parse haxis).bind
    intro index hindex
    subst hindex
    apply (returns_axis hM hvalid.2).bind
    intro axes haxes
    apply returns_make
    rw [Node.denote_mk_two, hinput, haxes]
    exact hr.unsqueeze x index hvalid.1
  · cases h

end Rank

/-! ## Selecting, joining and splitting -/

section Select

variable {M : Meaning ℝ} {ng : Ngraph} {nodes : NgraphNodes} {self : OperationsBase}
variable {g : Arguments} {x positions y : Tensor ℝ} {axis : Int}

/-- A node of three that selects. -/
theorem denote_chosen (hr : M.Rearranges) (h : Arguments.chosen x positions axis = some y)
    {input indices axisNode : Node} (hinput : input.denote M 0 = x)
    (hindices : indices.denote M 0 = positions)
    (haxis : axisNode.denote M 0 = constantTensor [] [.int axis]) :
    (Node.mk .gather [(input, 0), (indices, 0), (axisNode, 0)]).denote M 0 = y := by
  unfold Arguments.chosen at h
  split at h
  · next hvalid =>
    obtain rfl := Option.some.inj h
    rw [Node.denote_mk_three, hinput, hindices, haxis]
    exact hr.gather x positions axis hvalid.1 hvalid.2.2
  · cases h

theorem contains_of_chosen (h : Arguments.chosen x positions axis = some y) :
    int32Range.Contains axis := by
  unfold Arguments.chosen at h
  split at h
  · next hvalid => exact hvalid.2.1
  · cases h

theorem Gather.createNode_denotes (hM : M.Computable) (hr : M.Rearranges)
    (hg : self.Meets ng M nodes g) (h : g.gather = some y) :
    Returns (answer ng) nodes (Gather.createNode self) fun node => node.denote M 0 = y := by
  obtain ⟨x, hx, h⟩ := Option.bind_eq_some_iff.mp h
  obtain ⟨axis, haxis, h⟩ := Option.bind_eq_some_iff.mp h
  obtain ⟨positions, hpositions, h⟩ := Option.bind_eq_some_iff.mp h
  apply (hg.tensor 0 x hx).bind
  intro input hinput
  apply (hg.parse haxis).bind
  intro value hvalue
  subst hvalue
  apply (returns_axis hM (contains_of_chosen h)).bind
  intro axisNode haxisNode
  apply (hg.tensor 2 positions hpositions).bind
  intro indices hindices
  exact returns_make (denote_chosen hr h hinput hindices haxisNode)

theorem EmbeddingLookup.createNode_denotes (hM : M.Computable) (hr : M.Rearranges)
    (hg : self.Meets ng M nodes g) (h : g.embeddingLookup = some y) :
    Returns (answer ng) nodes (EmbeddingLookup.createNode self) fun node =>
      node.denote M 0 = y := by
  obtain ⟨positions, hpositions, h⟩ := Option.bind_eq_some_iff.mp h
  obtain ⟨x, hx, h⟩ := Option.bind_eq_some_iff.mp h
  apply (hg.tensor 0 positions hpositions).bind
  intro indices hindices
  apply (hg.tensor 1 x hx).bind
  intro input hinput
  apply (returns_axis hM (contains_of_chosen h)).bind
  intro axisNode haxisNode
  exact returns_make (denote_chosen hr h hinput hindices haxisNode)

/-- Inputs that are read one after the other. -/
theorem returns_inputs (hg : self.Meets ng M nodes g) {is : List Nat} {xs : List (Tensor ℝ)}
    (h : is.mapM g.tensor = some xs) :
    Returns (answer ng) nodes (is.mapM fun i => self.getInputNode i) fun inputs =>
      Node.denoteAll M (inputs.map fun (input : Node) => (input : Output)) = xs := by
  induction is generalizing xs with
  | nil =>
      obtain rfl := Option.some.inj h
      exact returns_pure rfl
  | cons i is ih =>
      rw [List.mapM_cons] at h
      obtain ⟨x, hx, h⟩ := Option.bind_eq_some_iff.mp h
      obtain ⟨rest, hrest, h⟩ := Option.bind_eq_some_iff.mp h
      obtain rfl := Option.some.inj h
      rw [List.mapM_cons]
      apply (hg.tensor i x hx).bind
      intro input hinput
      apply (ih hrest).bind
      intro inputs hinputs
      apply returns_pure
      rw [List.map_cons, Node.denoteAll, hinputs, Node.denoteOutput, hinput]

theorem Concat.createNode_denotes (hr : M.Rearranges) (hg : self.Meets ng M nodes g)
    (h : g.concatenation = some y) :
    Returns (answer ng) nodes (Concat.createNode self) fun node => node.denote M 0 = y := by
  obtain ⟨xs, hxs, h⟩ := Option.bind_eq_some_iff.mp h
  obtain ⟨axis, haxis, h⟩ := Option.bind_eq_some_iff.mp h
  rw [hg.count] at hxs haxis
  split at h
  · next hvalid =>
    obtain rfl := Option.some.inj h
    unfold Concat.createNode
    apply (hg.parse haxis).bind
    intro value hvalue
    subst hvalue
    apply (returns_inputs hg hxs).bind
    intro inputs hinputs
    apply returns_make
    obtain ⟨along, rfl⟩ := Int.eq_ofNat_of_zero_le hvalid.1
    rw [Node.denote, hinputs]
    exact hr.concat along xs hvalid.2
  · cases h

/-- The part of a split that is bound to an output, converted to its own type. -/
theorem returns_part (hM : M.Computable) {type : ElementType}
    (htype : splitElement (self.getInputOperand 0).type = some type) {split : Node} {i : Nat}
    {part : Tensor ℝ} (hsplit : split.denote M i = part)
    (hpart : ∀ index, Inside part.shape index → type.Holds (part.get index)) :
    ∃ convert, Split.outNode self split i = some convert ∧
      Returns (answer ng) nodes convert fun node => node.denote M 0 = part := by
  have hconvert : Returns (answer ng) nodes (makeShared (.convert type) [split.output i])
      fun node => node.denote M 0 = part := by
    apply returns_make
    rw [Node.denote_mk_one, Node.output, hsplit, hM.convert type part hpart]
  unfold Split.outNode
  cases hcase : (self.getInputOperand 0).type <;> rw [hcase] at htype <;> cases htype
  all_goals exact ⟨_, rfl, hconvert⟩

/-- The loop of `Split` over some of its outputs. -/
theorem connects_parts (hM : M.Computable) {type : ElementType}
    (htype : splitElement (self.getInputOperand 0).type = some type) {split : Node}
    {part : Nat → Tensor ℝ} {is : List Nat} (hsplit : ∀ i ∈ is, split.denote M i = part i)
    (hpart : ∀ i ∈ is, ∀ index, Inside (part i).shape index → type.Holds ((part i).get index)) :
    self.ConnectsTo ng M nodes (forM is fun i => do
        let index ← Split.outputAt self i
        self.setConverted index (Split.outNode self split i))
      (is.map fun i => self.outputIndex i) (is.map part) := by
  induction is generalizing nodes with
  | nil =>
      rintro _ -
      exact ⟨[], .nil, .nil⟩
  | cons i is ih =>
      have hmem : i ∈ i :: is := List.mem_cons_self
      obtain ⟨convert, hconvert, hreturns⟩ :=
        @returns_part M ng nodes self hM type htype split i _ (hsplit i hmem) (hpart i hmem)
      unfold OperationsBase.ConnectsTo
      rw [List.forM_cons]
      have hindex : Returns (answer ng) nodes (Split.outputAt self i) (· = self.outputIndex i) :=
        returns_elementAt rfl
      have hfirst : Ends (answer ng) nodes (do
          let index ← Split.outputAt self i
          self.setConverted index (Split.outNode self split i)) fun _ nodes' =>
            ∃ node : Node, Connects self.sModelInfo nodes nodes' [self.outputIndex i] [node] ∧
              node.denote M 0 = part i := by
        refine hindex.bind_ends fun index heq => ?_
        subst heq
        rw [hconvert]
        refine hreturns.bind_ends fun node hnode => ?_
        exact connects_setOperationOutput.mono fun _ _ h => ⟨node, h, hnode⟩
      refine Ends.bind hfirst fun _ nodes₁ h => ?_
      obtain ⟨node, hconnects, hnode⟩ := h
      have hrest := @ih nodes₁ (fun j hj => hsplit j (List.mem_cons_of_mem _ hj))
        fun j hj => hpart j (List.mem_cons_of_mem _ hj)
      refine Ends.mono hrest fun _ nodes₂ h => ?_
      obtain ⟨ns, hns, hall⟩ := h
      exact ⟨node :: ns, hconnects.cons hns, .cons hnode hall⟩

theorem Split.createNode_connects (hM : M.Computable) (hr : M.Rearranges)
    (hg : self.Meets ng M nodes g) {os : List Nat}
    (hos : (self.sModelInfo.getOperation self.mNnapiOperationIndex).outputs = os)
    {qs : List (Tensor ℝ)} (h : g.split os.length = some qs) :
    self.ConnectsTo ng M nodes (Split.createNode self) os qs := by
  obtain ⟨q, hq, h⟩ := Option.bind_eq_some_iff.mp h
  obtain ⟨axis, haxis, h⟩ := Option.bind_eq_some_iff.mp h
  obtain ⟨parts, hparts, h⟩ := Option.bind_eq_some_iff.mp h
  obtain ⟨type, htype, h⟩ := Option.bind_eq_some_iff.mp h
  rw [hg.operand] at htype
  dsimp only at h
  split at h
  · next hvalid =>
    obtain ⟨hcount, hrank, hsize, hcontains, hholds⟩ := hvalid
    obtain rfl := Option.some.inj h
    unfold OperationsBase.ConnectsTo Split.createNode
    refine (hg.stored 0 q hq).bind_ends fun splitNode hsplitNode => ?_
    refine (hg.parse haxis).bind_ends fun value hvalue => ?_
    subst hvalue
    refine (returns_axis hM hcontains).bind_ends fun axisNode haxisNode => ?_
    refine (hg.parse hparts).bind_ends fun numSplits hnumSplits => ?_
    have hnumber : numSplits.toNat = os.length := by
      rw [hnumSplits, hcount]
      exact Int.toNat_natCast _
    rw [hnumber]
    refine (returns_make (Q := (· = Node.mk (.split os.length) [(splitNode, 0), (axisNode, 0)]))
      rfl).bind_ends fun split hsplit => ?_
    subst hsplit
    have hrange : (List.range os.length).map (fun i => self.outputIndex i) = os := by
      apply List.ext_getElem
      · simp
      · intro i hi hi'
        simp [OperationsBase.outputIndex, NnapiModelInfo.getOperationOutput, hos, hi']
    have hloop := @connects_parts M ng nodes self hM type htype
      (Node.mk (.split os.length) [(splitNode, 0), (axisNode, 0)])
      (fun k => q.slice (normalAxis q.shape.length value)
        (k * (q.shape.getD (normalAxis q.shape.length value) 0 / os.length))
        (q.shape.getD (normalAxis q.shape.length value) 0 / os.length))
      (List.range os.length) ?_ ?_
    · rw [hrange] at hloop
      exact hloop
    · intro k hk
      rw [Node.denote_mk_two, hsplitNode, haxisNode]
      exact hr.split q value os.length _ k hrank hsize (List.mem_range.mp hk)
    · intro k hk index hin
      have haxis : normalAxis q.shape.length value < q.shape.length :=
        normalAxis_lt (hrank value List.mem_cons_self).1 (hrank value List.mem_cons_self).2
      replace hin : Inside (q.shape.set (normalAxis q.shape.length value) _) index := hin
      rw [Tensor.get_slice hin]
      refine hholds _ (Tensor.inside_of_slice haxis ?_ hin)
      have hlast : (k + 1) * (q.shape.getD (normalAxis q.shape.length value) 0 / os.length) ≤
          os.length * (q.shape.getD (normalAxis q.shape.length value) 0 / os.length) :=
        Nat.mul_le_mul_right _ (List.mem_range.mp hk)
      rw [Nat.succ_mul] at hlast
      omega
  · cases h

end Select

/-! ## Padding -/

section Padding

theorem length_splitPairs (l : List Int) :
    (splitPairs l).1.length = l.length / 2 ∧ (splitPairs l).2.length = l.length / 2 := by
  induction l using splitPairs.induct with
  | case1 a b rest ih =>
      rw [splitPairs, List.length_cons, List.length_cons, List.length_cons, List.length_cons,
        ih.1, ih.2]
      omega
  | case2 l h =>
      match l, h with
      | [], _ => exact ⟨rfl, rfl⟩
      | [a], _ => simp [splitPairs]
      | a :: b :: rest, h => exact absurd rfl (h a b rest)

theorem mem_splitPairs {l : List Int} {a : Int} (h : a ∈ (splitPairs l).1 ∨ a ∈ (splitPairs l).2) :
    a ∈ l := by
  induction l using splitPairs.induct with
  | case1 b c rest ih =>
      simp only [splitPairs, List.mem_cons] at h ⊢
      tauto
  | case2 l hl =>
      match l, hl with
      | [], _ => simp [splitPairs] at h
      | [b], _ => simp [splitPairs] at h
      | b :: c :: rest, hl => exact absurd rfl (hl b c rest)

variable {M : Meaning ℝ} {ng : Ngraph} {nodes : NgraphNodes} {self : OperationsBase}
variable {g : Arguments} {x y : Tensor ℝ} {v : ℝ}

/-- The pairs of paddings become two constants. -/
theorem returns_paddings (hM : M.Computable) (hg : self.Meets ng M nodes g)
    (h : g.padded x v = some y) {Q : Node → Prop} {p : Node → Node → Gen Node}
    (hp : ∀ (heads tails : List Nat) (padsBegin padsEnd : Node),
      heads.length = x.shape.length → tails.length = x.shape.length →
      padsBegin.denote M 0 = sizes heads → padsEnd.denote M 0 = sizes tails →
      y = x.pad heads tails v → Returns (answer ng) nodes (p padsBegin padsEnd) Q) :
    Returns (answer ng) nodes (do
      let paddings ← self.getConstVecInput .int32 1
      let padsBegin ← createConstNode .i32 [paddings.length / 2] ((splitPairs paddings).1.map .int)
      let padsEnd ← createConstNode .i32 [paddings.length / 2] ((splitPairs paddings).2.map .int)
      p padsBegin padsEnd) Q := by
  obtain ⟨paddings, hpaddings, h⟩ := Option.bind_eq_some_iff.mp h
  split at h
  · next hvalid =>
    obtain ⟨hlength, hnonneg⟩ := hvalid
    obtain rfl := Option.some.inj h
    obtain ⟨hheads, htails⟩ := length_splitPairs paddings
    have hsize : ∀ l : List Int, (∀ a ∈ l, a ∈ paddings) →
        vectorTensor l = sizes (l.map Int.toNat) := by
      intro l hl
      rw [← vectorTensor_sizes, map_toNat_cast fun a ha => hnonneg a (hl a ha)]
    apply (hg.parseVector hpaddings).bind
    intro values hvalues
    subst hvalues
    apply (returns_vector hM.toTransposes .i32 hheads.symm).bind
    intro padsBegin hbegin
    apply (returns_vector hM.toTransposes .i32 htails.symm).bind
    intro padsEnd hend
    rw [hsize _ fun a ha => mem_splitPairs (.inl ha)] at hbegin
    rw [hsize _ fun a ha => mem_splitPairs (.inr ha)] at hend
    refine hp _ _ padsBegin padsEnd ?_ ?_ hbegin hend rfl
    · rw [List.length_map, hheads, hlength]
      omega
    · rw [List.length_map, htails, hlength]
      omega
  · cases h

theorem Pad.createNode_denotes (hM : M.Computable) (hr : M.Rearranges)
    (hg : self.Meets ng M nodes g) (h : g.pad = some y) :
    Returns (answer ng) nodes (Pad.createNode self) fun node => node.denote M 0 = y := by
  obtain ⟨x, hx, h⟩ := Option.bind_eq_some_iff.mp h
  apply (hg.tensor 0 x hx).bind
  intro input hinput
  refine returns_paddings hM hg h ?_
  intro heads tails padsBegin padsEnd hheads htails hbegin hend hy
  apply returns_make
  rw [Node.denote_mk_three, hinput, hbegin, hend, hy]
  exact hr.pad x heads tails hheads htails

/-- The value `PadV2` pads with. -/
theorem returns_padValue (hM : M.Computable) (hg : self.Meets ng M nodes g)
    (h : g.padValue = some v) :
    Returns (answer ng) nodes (PadV2.padValue self) fun node =>
      (node.denote M 0).shape = [] ∧ (node.denote M 0).get [] = v := by
  unfold Arguments.padValue at h
  unfold PadV2.padValue
  rw [hg.operand] at h
  have hreal : ∀ {T : CType} {type : ElementType}, (∀ u : ℝ, type.Holds u) →
      g.real T 2 = some v → Returns (answer ng) nodes (do
        let padScalarValue ← self.parseOperationInput T 2
        createConstNode type [] [T.scalar padScalarValue]) fun node =>
          (node.denote M 0).shape = [] ∧ (node.denote M 0).get [] = v := by
    intro T type hholds hv
    obtain ⟨n, hn, hfinite, rfl⟩ := real_eq_some hv
    apply (hg.parse hn).bind
    intro value hvalue
    subst hvalue
    exact returns_number hM type ⟨hfinite, hholds _⟩
  have hquantized : ((g.number .int32 2).bind fun u => (self.getInputOperand 0).affine.bind fun a =>
      if int32Range.Contains u then some ((u - a.zeroPoint) * a.scale) else none) = some v →
      Returns (answer ng) nodes (do
        let padScalarValue ← self.parseOperationInput .int32 2
        let padValue ← createConstNode .i32 [] [.int padScalarValue]
        self.dequantizeNode padValue (self.inputIndex 0) .f32) fun node =>
          (node.denote M 0).shape = [] ∧ (node.denote M 0).get [] = v := by
    intro hv
    obtain ⟨n, hn, hv⟩ := Option.bind_eq_some_iff.mp hv
    obtain ⟨a, ha, hv⟩ := Option.bind_eq_some_iff.mp hv
    split at hv
    · next hcontains =>
      obtain rfl := Option.some.inj hv
      apply (hg.parse hn).bind
      intro value hvalue
      subst hvalue
      apply (returns_axis hM hcontains).bind
      intro padValue hpad
      apply (returns_loaded hM ha padValue .f32).mono
      intro node hnode
      rw [hnode, hpad]
      refine ⟨rfl, ?_⟩
      rw [Tensor.get_map inside_nil]
      have hentry : (constantTensor [] [.int value]).get [] = (value : ℝ) :=
        (Tensor.get_ofFn inside_nil).trans (real_int value)
      rw [hentry]
    · cases hv
  cases hcase : (self.getInputOperand 0).type <;> rw [hcase] at h <;> dsimp only at h ⊢
  case tensorFloat32 => exact hreal (fun _ => trivial) h
  case tensorFloat16 => exact hreal (fun _ => trivial) h
  case tensorQuant8Asymm | tensorQuant8AsymmSigned => exact hquantized h
  all_goals cases h

theorem PadV2.createNode_denotes (hM : M.Computable) (hr : M.Rearranges)
    (hg : self.Meets ng M nodes g) (h : g.padV2 = some y) :
    Returns (answer ng) nodes (PadV2.createNode self) fun node => node.denote M 0 = y := by
  obtain ⟨x, hx, h⟩ := Option.bind_eq_some_iff.mp h
  obtain ⟨v, hv, h⟩ := Option.bind_eq_some_iff.mp h
  apply (hg.tensor 0 x hx).bind
  intro input hinput
  apply (returns_padValue hM hg hv).bind
  intro padValue hpad
  refine returns_paddings hM hg h ?_
  intro heads tails padsBegin padsEnd hheads htails hbegin hend hy
  apply returns_make
  have hdenote : (Node.mk .pad [(input, 0), (padsBegin, 0), (padsEnd, 0), (padValue, 0)]).denote
      M 0 = M .pad [input.denote M 0, padsBegin.denote M 0, padsEnd.denote M 0,
        padValue.denote M 0] 0 := by
    simp only [Node.denote, Node.denoteAll, Node.denoteOutput]
  rw [hdenote, hinput, hbegin, hend, hy, ← hpad.2]
  exact hr.padWith x _ heads tails hheads htails hpad.1

end Padding

/-! ## Blocks and channels -/

section Blocks

/-- A tensor is given by its entries. -/
theorem HasEntries.eq_arranged {nchw : Bool} {n h w c : Nat} {entry : Int → Int → Int → Int → ℝ}
    {t : Tensor ℝ} (ht : HasEntries nchw n h w c entry t) : t = arranged nchw n h w c entry := by
  apply Tensor.ext_inside ht.1
  intro index hin
  rw [ht.1] at hin
  have hlength : index.length = 4 := by
    rw [hin.length_eq]
    cases nchw <;> rfl
  match index, hlength with
  | [b, p, q, r], _ =>
      rw [arranged, Tensor.get_ofFn hin]
      cases nchw
      · exact ht.2 b p q r hin
      · exact ht.2 b q r p hin

variable {M : Meaning ℝ} {ng : Ngraph} {nodes : NgraphNodes} {self : OperationsBase}
variable {g : Arguments} {x y : Tensor ℝ} {nchw : Bool}

theorem OperationsBase.Meets.layout (hg : self.Meets ng M nodes g) {count k : Nat}
    (h : g.layout count k = some nchw) : self.givenLayout count k = nchw := by
  unfold Arguments.layout at h
  unfold OperationsBase.givenLayout
  rw [hg.count] at h
  by_cases hcount : self.inputsSize = count
  · rw [if_pos hcount] at h
    obtain ⟨v, hv, rfl⟩ := Option.map_eq_some_iff.mp h
    simp [hcount, (hg.number _ _ _ hv).2.2]
  · rw [if_neg hcount] at h
    obtain rfl := Option.some.inj h
    simp [hcount]

/-- The block, the layout and the tensor of an operation on square blocks. -/
theorem OperationsBase.Meets.givesBlock (hg : self.Meets ng M nodes g) {block : Int}
    (hx : g.tensor 0 = some x) (hblock : g.number .uint32 1 = some block)
    (hlayout : g.layout 3 2 = some nchw) (hpos : 0 < block.toNat) :
    GivesBlock self ng M nodes nchw block.toNat x where
  block := by
    rw [(hg.number _ _ _ hblock).2.2]
    omega
  layout := hg.layout hlayout
  input := hg.tensor 0 x hx

theorem SpaceToDepth.createNode_denotes (hM : M.Computable) (hr : M.Rearranges)
    (hg : self.Meets ng M nodes g) (h : g.spaceToDepth = some y) :
    Returns (answer ng) nodes (SpaceToDepth.createNode self) fun node => node.denote M 0 = y := by
  obtain ⟨x, hx, h⟩ := Option.bind_eq_some_iff.mp h
  obtain ⟨block, hblock, h⟩ := Option.bind_eq_some_iff.mp h
  obtain ⟨nchw, hlayout, h⟩ := Option.bind_eq_some_iff.mp h
  dsimp only at h
  split at h
  · next hvalid =>
    obtain ⟨hpos, hshape⟩ := hvalid
    obtain rfl := Option.some.inj h
    have hnchw := shape_toNchw hshape
    have hgathered : ((toNchw nchw x).gatherBlocks 1 block.toNat block.toNat).shape =
        [_, _, _, _] := Tensor.shape_gatherBlocks (by decide) hpos hpos hnchw
    apply (returns_blockNode hM.toTransposes (hg.givesBlock hx hblock hlayout hpos) hshape
      (hr.spaceToDepth _ _ _ _ _ _ hpos hnchw) hgathered).mono
    intro node hnode
    rw [hnode]
    refine HasEntries.eq_arranged ⟨shape_fromNchw hgathered, ?_⟩
    intro m i j k hin
    rw [get_fromNchw hgathered]
    beta_reduce
    rw [← get_toNchw hshape]
    exact Tensor.get_gatherBlocks (by decide) hpos hpos hnchw (inside_arrange.mp hin)
  · cases h

theorem DepthToSpace.createNode_denotes (hM : M.Computable) (hr : M.Rearranges)
    (hg : self.Meets ng M nodes g) (h : g.depthToSpace = some y) :
    Returns (answer ng) nodes (DepthToSpace.createNode self) fun node => node.denote M 0 = y := by
  obtain ⟨x, hx, h⟩ := Option.bind_eq_some_iff.mp h
  obtain ⟨block, hblock, h⟩ := Option.bind_eq_some_iff.mp h
  obtain ⟨nchw, hlayout, h⟩ := Option.bind_eq_some_iff.mp h
  dsimp only at h
  split at h
  · next hvalid =>
    obtain ⟨hpos, hshape⟩ := hvalid
    obtain rfl := Option.some.inj h
    have hnchw := shape_toNchw hshape
    have hspread : ((toNchw nchw x).spreadBlocks 1 block.toNat block.toNat).shape =
        [_, _, _, _] := Tensor.shape_spreadBlocks (by decide) hpos hpos hnchw
    apply (returns_blockNode hM.toTransposes (hg.givesBlock hx hblock hlayout hpos) hshape
      (hr.depthToSpace _ _ _ _ _ _ hpos hnchw) hspread).mono
    intro node hnode
    rw [hnode]
    refine HasEntries.eq_arranged ⟨shape_fromNchw hspread, ?_⟩
    intro m i j k hin
    rw [get_fromNchw hspread]
    beta_reduce
    rw [← get_toNchw hshape]
    exact Tensor.get_spreadBlocks (by decide) hpos hpos hnchw (inside_arrange.mp hin)
  · cases h

/-- The axes behind those of the input. -/
theorem returns_squeezeAxes (hM : M.Transposes) {rank : Nat} (hpos : 0 < rank) (hlt : rank < 4) :
    Returns (answer ng) nodes (ChannelShuffle.squeezeAxes rank) fun node =>
      node.denote M 0 =
        vectorTensor ((List.range' rank (4 - rank)).map fun (a : Nat) => (a : Int)) := by
  obtain rfl | rfl | rfl : rank = 1 ∨ rank = 2 ∨ rank = 3 := by omega
  · exact @returns_vector M ng nodes hM .i64 [1, 2, 3] 3 rfl
  · exact @returns_vector M ng nodes hM .i64 [2, 3] 2 rfl
  · exact @returns_vector M ng nodes hM .i64 [3] 1 rfl

theorem dropAxes_append_ones (shape : List Nat) (k : Nat) :
    Tensor.dropAxes (List.range' shape.length k) (shape ++ List.replicate k 1) = shape := by
  unfold Tensor.dropAxes
  have hfront : (shape.zipIdx.filter fun d => d.2 ∉ List.range' shape.length k) = shape.zipIdx := by
    apply List.filter_eq_self.mpr
    intro d hd
    have hlt := (List.mem_zipIdx hd).2.1
    simp only [List.mem_range'_1, decide_eq_true_eq]
    omega
  have hback : (((List.replicate k 1).zipIdx shape.length).filter fun d =>
      d.2 ∉ List.range' shape.length k) = [] := by
    apply List.filter_eq_nil_iff.mpr
    intro d hd
    have hmem := List.mem_zipIdx hd
    rw [List.length_replicate] at hmem
    simp only [List.mem_range'_1, decide_eq_true_eq]
    omega
  rw [List.zipIdx_append, List.filter_append, Nat.zero_add, hfront, hback, List.append_nil]
  exact List.zipIdx_map_fst _ _

/-- Squeezing the axes that came behind. -/
theorem squeeze_ones (hr : M.Rearranges) {z : Tensor ℝ} {shape : List Nat} {k : Nat}
    (hz : z.shape = shape ++ List.replicate k 1) (hk : 0 < k) :
    M .squeeze [z, vectorTensor ((List.range' shape.length k).map fun (a : Nat) => (a : Int))] 0 =
      z.reshape shape := by
  have hpositions : ((List.range' shape.length k).map fun (a : Nat) => (a : Int)).map
      (normalAxis z.shape.length) = List.range' shape.length k := by
    rw [List.map_map]
    refine (List.map_congr_left fun a _ => ?_).trans (List.map_id _)
    have hnonneg : ¬ (a : Int) < 0 := by omega
    simp only [Function.comp_apply, normalAxis, if_neg hnonneg, Int.toNat_natCast, id]
  rw [hr.squeeze z, hpositions, hz, dropAxes_append_ones]
  · intro hnil
    have hlength := congrArg List.length hnil
    rw [List.length_map, List.length_range', List.length_nil] at hlength
    omega
  · intro a ha
    obtain ⟨n, hn, rfl⟩ := List.mem_map.mp ha
    rw [List.mem_range'_1] at hn
    rw [hz, List.length_append, List.length_replicate]
    omega
  · intro a ha
    rw [hpositions, List.mem_range'_1] at ha
    rw [hz, List.getD_append_right _ _ _ _ ha.1, List.getD_replicate _ (by omega)]

theorem ChannelShuffle.createNode_denotes (hM : M.Computable) (hr : M.Rearranges)
    (hg : self.Meets ng M nodes g) (h : g.channelShuffle = some y) :
    Returns (answer ng) nodes (ChannelShuffle.createNode self) fun node => node.denote M 0 = y := by
  obtain ⟨x, hx, h⟩ := Option.bind_eq_some_iff.mp h
  obtain ⟨groups, hgroups, h⟩ := Option.bind_eq_some_iff.mp h
  obtain ⟨axis, haxis, h⟩ := Option.bind_eq_some_iff.mp h
  dsimp only at h
  split at h
  · next hvalid =>
    obtain ⟨hdeclared, hfour, hrank, hpos, hdvd⟩ := hvalid
    obtain rfl := Option.some.inj h
    have hdims : (self.getInputOperandDimensions 0).length = x.shape.length := by
      rw [← hdeclared, hg.operand]
      rfl
    obtain ⟨hlow, hhigh⟩ := hrank axis List.mem_cons_self
    have hlt := normalAxis_lt hlow hhigh
    have hgroupsPos : 0 < groups.toNat := by omega
    have hgroupsNat : groups = (groups.toNat : Int) := by omega
    have haxisNat : (if axis ≥ 0 then axis else axis + x.shape.length) =
        (normalAxis x.shape.length axis : Int) := by
      unfold normalAxis
      by_cases hneg : axis < 0
      · rw [if_neg (by omega), if_pos hneg]
        omega
      · rw [if_pos (by omega), if_neg hneg]
        omega
    unfold ChannelShuffle.createNode
    apply (hg.tensor 0 x hx).bind
    intro input hinput
    apply (hg.parse hgroups).bind
    intro group hgroup
    apply (hg.parse haxis).bind
    intro value hvalue
    rw [hgroup, hvalue, hdims]
    dsimp only
    rw [haxisNat, hgroupsNat]
    generalize normalAxis x.shape.length axis = along at hlt hdvd ⊢
    refine returns_ite (fun hbelow => ?_) fun hbelow => ?_
    · -- through rank four and back
      have hback : x.shape.length + (4 - x.shape.length) = 4 := by omega
      have hones : ∀ k, (x.shape ++ List.replicate k 1).getD along 0 = x.shape.getD along 0 :=
        fun k => List.getD_append _ _ _ _ hlt
      apply (returns_squeezeAxes hM.toTransposes (by omega) hbelow).bind
      intro axes haxes
      refine Returns.bind (Q := fun node => node.denote M 0 =
        x.reshape (x.shape ++ List.replicate (4 - x.shape.length) 1)) (returns_make ?_)
        fun raised hraised => ?_
      · rw [Node.denote_mk_two, hinput, haxes]
        exact hr.unsqueezeBehind x _
      refine Returns.bind (Q := fun node => node.denote M 0 =
        (x.reshape (x.shape ++ List.replicate (4 - x.shape.length) 1)).shuffle along groups.toNat)
        (returns_make ?_) fun shuffled hshuffled => returns_make ?_
      · rw [Node.denote_mk_one, hraised]
        refine hr.shuffle _ along groups.toNat ?_ (by omega) hgroupsPos ?_
        · rw [Tensor.shape_reshape, List.length_append, List.length_replicate, hback]
        · rw [Tensor.shape_reshape, hones]
          exact hdvd
      · have hshape : ((x.reshape (x.shape ++ List.replicate (4 - x.shape.length) 1)).shuffle along
            groups.toNat).shape = x.shape ++ List.replicate (4 - x.shape.length) 1 := rfl
        rw [Node.denote_mk_two, hshuffled, haxes, squeeze_ones hr hshape (by omega)]
        exact Tensor.shuffle_append_ones hlt hdvd hgroupsPos
    · have hfull : x.shape.length = 4 := by omega
      apply returns_make
      rw [Node.denote_mk_one, hinput]
      exact hr.shuffle x along groups.toNat hfull (by omega) hgroupsPos hdvd
  · cases h

end Blocks

end NnHal
