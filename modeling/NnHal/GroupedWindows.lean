import Mathlib.Algebra.Order.Ring.Defs
import NnHal.ConvolutionMeanings

/-!
# The two windows of `GroupedConv2d`

`GroupedConv2d` hands ngraph strides and paddings with the width's first, where
ngraph takes the first of each for the height.  Its graph is therefore NNAPI's
grouped convolution with the two windows exchanged, and it is NNAPI's own
exactly when every tap reads the same cell under both.
-/

namespace NnHal

open Command Tensors
open scoped BigOperators

namespace GroupedConv2d

variable {R : Type} [CommRing R] [LinearOrder R]

/-- The sizes of a grouped convolution: the batch, the input's height, width
and channels, and the filter's outputs, height, width and channels. -/
structure Sizes where
  batch : Nat
  height : Nat
  width : Nat
  depth : Nat
  outputs : Nat
  filterHeight : Nat
  filterWidth : Nat
  filterDepth : Nat
  deriving DecidableEq, Repr

/-- No size is zero. -/
structure Sizes.Positive (z : Sizes) : Prop where
  batch : 1 ≤ z.batch
  depth : 1 ≤ z.depth
  outputs : 1 ≤ z.outputs
  filterHeight : 1 ≤ z.filterHeight
  filterWidth : 1 ≤ z.filterWidth
  filterDepth : 1 ≤ z.filterDepth

/-- The tensors have these sizes, and the operands are declared with them. -/
structure Sizes.Of (z : Sizes) (operation : OperationsBase) (nchw : Bool) : Prop where
  input : operation.getInputOperandDimensions 0 =
    arrange nchw z.batch z.height z.width z.depth
  filter : operation.getInputOperandDimensions 1 =
    [z.outputs, z.filterHeight, z.filterWidth, z.filterDepth]
  bias : operation.getInputOperandDimensions 2 = [z.outputs]

/-- The group count of the operation. -/
def groups (self : OperationsBase) (explicit : Bool) : Int :=
  self.int32Input (OperationsBase.strideInput explicit + 2)

/-- An output entry of a grouped convolution under two windows: output channel
`g * m + o` reads the input channels of group `g`. -/
def entry (p : ConvParams) (z : Sizes) (m : Nat) (vertical horizontal : Window)
    (x w bias : Tensor R) (b i j k : Int) : R :=
  fusedActivation p.activation (bias.get [k] +
    ∑ di ∈ Finset.range z.filterHeight, ∑ dj ∈ Finset.range z.filterWidth,
      ∑ l ∈ Finset.range z.filterDepth,
        x.get (arrange p.nchw b (vertical.coord i di) (horizontal.coord j dj)
          (k / m * z.filterDepth + l)) * w.get [k, di, dj, l])

/-- A tensor is the grouped convolution under two windows. -/
def IsConvolution (p : ConvParams) (z : Sizes) (m : Nat) (vertical horizontal : Window)
    (x w bias t : Tensor R) : Prop :=
  HasEntries p.nchw z.batch (vertical.outputSize z.height z.filterHeight)
    (horizontal.outputSize z.width z.filterWidth) z.outputs
    (entry p z m vertical horizontal x w bias) t

/-- The graph of the operation computes NNAPI's grouped convolution of its
three tensors. -/
def Computes (R : Type) [CommRing R] [LinearOrder R] (self : OperationsBase) (explicit : Bool)
    (z : Sizes) : Prop :=
  let p := self.convParams explicit 1
  ∀ (M : Meaning R) (ng : Ngraph) (nodes : NgraphNodes) (x w bias : Tensor R) (node : Node),
    M.AddsBias → M.Transposes → M.GroupConvolves → ng.Infers M →
    self.InputDenotes ng M nodes 0 x → self.InputDenotes ng M nodes 1 w →
    self.BiasDenotes ng M nodes bias →
    x.shape = self.getInputOperandDimensions 0 → w.shape = self.getInputOperandDimensions 1 →
    bias.shape = self.getInputOperandDimensions 2 →
    (exec (answer ng) (GroupedConv2d.createNode self) nodes).outcome = .ok node →
    IsConvolution p z (z.outputs / (groups self explicit).toNat)
      (p.vertical z.height z.filterHeight) (p.horizontal z.width z.filterWidth) x w bias
      (node.denote M 0)

/-- The cell lies inside the input. -/
def Sizes.Covers (z : Sizes) (row column : Int) : Prop :=
  (0 ≤ row ∧ row < z.height) ∧ (0 ≤ column ∧ column < z.width)

instance (z : Sizes) (row column : Int) : Decidable (z.Covers row column) :=
  inferInstanceAs (Decidable (_ ∧ _))

/-- At a position, a tap of the filter reads the same cell of the input, or
none, when the parameters of the two axes are exchanged. -/
def SameRead (p : ConvParams) (z : Sizes) (i j di dj : Nat) : Prop :=
  let row := (p.vertical z.height z.filterHeight).coord i di
  let column := (p.horizontal z.width z.filterWidth).coord j dj
  let row' := (p.horizontal z.height z.filterHeight).coord i di
  let column' := (p.vertical z.width z.filterWidth).coord j dj
  z.Covers row column ∨ z.Covers row' column' → row' = row ∧ column' = column

instance (p : ConvParams) (z : Sizes) (i j di dj : Nat) : Decidable (SameRead p z i j di dj) :=
  inferInstanceAs (Decidable (_ ∨ _ → _ ∧ _))

/-- The parameters of the two axes can be exchanged: the output keeps its
height and width, and every tap reads the same everywhere. -/
def SameReads (p : ConvParams) (z : Sizes) : Prop :=
  let oh := (p.vertical z.height z.filterHeight).outputSize z.height z.filterHeight
  let ow := (p.horizontal z.width z.filterWidth).outputSize z.width z.filterWidth
  (p.horizontal z.height z.filterHeight).outputSize z.height z.filterHeight = oh ∧
    (p.vertical z.width z.filterWidth).outputSize z.width z.filterWidth = ow ∧
    ∀ i < oh, ∀ j < ow, ∀ di < z.filterHeight, ∀ dj < z.filterWidth, SameRead p z i j di dj

instance (p : ConvParams) (z : Sizes) : Decidable (SameReads p z) :=
  inferInstanceAs (Decidable (_ ∧ _ ∧ ∀ i < _, ∀ j < _, ∀ di < _, ∀ dj < _, SameRead p z i j di dj))

variable {M : Meaning R} {ng : Ngraph} {nodes : NgraphNodes} {self : OperationsBase}
variable {explicit : Bool} {z : Sizes} {x w bias : Tensor R}

/-- **What the graph computes.**  It is the grouped convolution with the
width's window on the height and the height's on the width. -/
theorem denotes (hM : M.AddsBias) (ht : M.Transposes) (hconv : M.GroupConvolves)
    (hng : ng.Infers M) (hsig : self.ConvSignature 1 1 explicit)
    (hp : (self.convParams explicit 1).Positive) (hz : z.Positive)
    (hsizes : z.Of self (self.convParams explicit 1).nchw)
    (hgroups : 1 ≤ groups self explicit) (hdvd : (groups self explicit).toNat ∣ z.outputs)
    (hx : self.InputDenotes ng M nodes 0 x) (hw : self.InputDenotes ng M nodes 1 w)
    (hbias : self.BiasDenotes ng M nodes bias)
    (hxdims : x.shape = self.getInputOperandDimensions 0)
    (hwdims : w.shape = self.getInputOperandDimensions 1)
    (hbdims : bias.shape = self.getInputOperandDimensions 2) {node : Node}
    (hnode : (exec (answer ng) (GroupedConv2d.createNode self) nodes).outcome = .ok node) :
    let p := self.convParams explicit 1
    IsConvolution p z (z.outputs / (groups self explicit).toNat)
      (p.horizontal z.height z.filterHeight) (p.vertical z.width z.filterWidth) x w bias
      (node.denote M 0) := by
  intro p
  rcases hdvd with ⟨m, hm⟩
  have hg : 0 < (groups self explicit).toNat := by omega
  have hmpos : 0 < m := by
    rcases Nat.eq_zero_or_pos m with h | h
    · rw [h, Nat.mul_zero] at hm
      have := hz.outputs
      omega
    · exact h
  have hquotient : z.outputs / (groups self explicit).toNat = m := by
    rw [hm, Nat.mul_div_cancel_left m hg]
  have hxshape := hxdims.trans hsizes.input
  have hwshape := hwdims.trans hsizes.filter
  have hbshape := hbdims.trans hsizes.bias
  have hinput := shape_toNchw hxshape
  have hfilter : (w.transpose [0, 3, 1, 2]).shape =
      [(groups self explicit).toNat * m, z.filterDepth, z.filterHeight, z.filterWidth] := by
    rw [shape_filter_ohwi hwshape, hm]
  have hpos : ∀ d ∈ [(groups self explicit).toNat, m, z.filterDepth, z.filterHeight,
      z.filterWidth], d ≠ 0 := by
    have h1 := hz.filterDepth
    have h2 := hz.filterHeight
    have h3 := hz.filterWidth
    intro d hd
    simp only [List.mem_cons, List.not_mem_nil, or_false] at hd
    omega
  have hy := @Tensor.shape_groupConvolve _ _ (p.horizontal z.height z.filterHeight)
    (p.vertical z.width z.filterWidth) _ ((w.transpose [0, 3, 1, 2]).reshape
      [(groups self explicit).toNat, m, z.filterDepth, z.filterHeight, z.filterWidth])
    _ _ _ _ _ _ _ _ _ hinput rfl
  rw [← hm] at hy
  have horder : GroupedConv2d.cls.filterOrder.order =
      [0, 3, 1, 2].map fun (a : Nat) => (a : Int) := rfl
  have hreturns := returns_convNode hM ht hng GroupedConv2d.cls_follows hsig hp horder
    (isOrder_nchw (by rw [hwshape]; rfl)) hx hw hbias hxshape hbshape hsizes.bias hy ?_
  · obtain ⟨_, hshape, hentries⟩ := hreturns node hnode
    refine ⟨hshape, ?_⟩
    intro b i j k hin
    have hin' := inside_arrange.mp hin
    rw [hentries b i j k hin]
    have hin'' : Inside [z.batch, (groups self explicit).toNat * m,
        (p.horizontal z.height z.filterHeight).outputSize z.height z.filterHeight,
        (p.vertical z.width z.filterWidth).outputSize z.width z.filterWidth] [b, k, i, j] := by
      rw [← hm]
      exact hin'
    have htap : ∀ di ∈ Finset.range z.filterHeight, ∀ dj ∈ Finset.range z.filterWidth,
        ∀ l ∈ Finset.range z.filterDepth,
        (toNchw p.nchw x).get [b, k / (m : Int) * (z.filterDepth : Int) + (l : Int),
            (p.horizontal z.height z.filterHeight).coord i di,
            (p.vertical z.width z.filterWidth).coord j dj] *
          ((w.transpose [0, 3, 1, 2]).reshape [(groups self explicit).toNat, m, z.filterDepth,
            z.filterHeight, z.filterWidth]).get [k / m, k % m, l, di, dj] =
        x.get (arrange p.nchw b ((p.horizontal z.height z.filterHeight).coord i di)
            ((p.vertical z.width z.filterWidth).coord j dj) (k / m * z.filterDepth + l)) *
          w.get [k, di, dj, l] := by
      intro di hdi dj hdj l hl
      rw [Finset.mem_range] at hdi hdj hl
      have hfin : Inside [(groups self explicit).toNat * m, z.filterDepth, z.filterHeight,
          z.filterWidth] [k, l, di, dj] :=
        ⟨hin''.2.1, ⟨by omega, by omega⟩, ⟨by omega, by omega⟩, ⟨by omega, by omega⟩, trivial⟩
      rw [Tensor.get_reshape_groups hfilter hfin, get_filter_ohwi hwshape, get_toNchw hxshape]
    beta_reduce
    rw [Tensor.get_groupConvolve hinput rfl hin'', add_comm, Finset.sum_congr rfl fun di hdi =>
      Finset.sum_congr rfl fun dj hdj => Finset.sum_congr rfl fun l hl => htap di hdi dj hdj l hl,
      hquotient]
    rfl
  · intro l inputNode filterNode attrs hl hcounts hin hfil hattrs
    have hlocal : (if GroupedConv2d.cls.dividesByChannel then l.inputChannel
        else l.numberGroups) = some (groups self explicit) := by
      have hdivides : ¬ GroupedConv2d.cls.dividesByChannel = true := by decide
      have hreads : GroupedConv2d.cls.hasGroups = true := rfl
      rw [if_neg hdivides, hcounts.1, if_pos hreads]
      rfl
    have hcore : Returns (answer ng) nodes
        (OperationsBase.convCore GroupedConv2d.cls l inputNode filterNode attrs) fun r =>
        r.denote M 0 = Tensor.groupConvolve (p.horizontal z.height z.filterHeight)
          (p.vertical z.width z.filterWidth) (inputNode.denote M 0)
          ((filterNode.denote M 0).reshape [(groups self explicit).toNat, m, z.filterDepth,
            z.filterHeight, z.filterWidth]) :=
      returns_groupedCore hM ht hng hconv rfl hlocal
        (toSizeT_of_pos hgroups (int32Input_lt _)) (by rw [hin]; exact hinput)
        (by rw [hfil]; exact hfilter) hpos (hattrs z.height z.filterHeight).1
        (hattrs z.width z.filterWidth).2
    rw [hin, hfil] at hcore
    exact hcore

/-! ### The condition is enough -/

omit [LinearOrder R] in
/-- A cell outside the input is zero in every channel. -/
theorem get_uncovered {nchw : Bool}
    (hx : x.shape = arrange nchw z.batch z.height z.width z.depth) {b row column channel : Int}
    (h : ¬ z.Covers row column) : x.get (arrange nchw b row column channel) = 0 := by
  apply x.outside
  rw [hx, inside_arrange]
  intro hboth
  rcases hboth with ⟨_, _, hrow, hcolumn, _⟩
  exact h ⟨hrow, hcolumn⟩

/-- Taps that read the same cells give the same entry. -/
theorem entry_congr {p : ConvParams} {m : Nat}
    {vertical horizontal vertical' horizontal' : Window}
    (hx : x.shape = arrange p.nchw z.batch z.height z.width z.depth) {b i j k : Int}
    (h : ∀ di < z.filterHeight, ∀ dj < z.filterWidth,
      z.Covers (vertical.coord i di) (horizontal.coord j dj) ∨
        z.Covers (vertical'.coord i di) (horizontal'.coord j dj) →
      vertical'.coord i di = vertical.coord i di ∧
        horizontal'.coord j dj = horizontal.coord j dj) :
    entry p z m vertical' horizontal' x w bias b i j k =
      entry p z m vertical horizontal x w bias b i j k := by
  have htap : ∀ di ∈ Finset.range z.filterHeight, ∀ dj ∈ Finset.range z.filterWidth,
      ∀ channel : Int,
      x.get (arrange p.nchw b (vertical'.coord i di) (horizontal'.coord j dj) channel) =
        x.get (arrange p.nchw b (vertical.coord i di) (horizontal.coord j dj) channel) := by
    intro di hdi dj hdj channel
    by_cases hcover : z.Covers (vertical.coord i di) (horizontal.coord j dj) ∨
        z.Covers (vertical'.coord i di) (horizontal'.coord j dj)
    · obtain ⟨hrow, hcolumn⟩ := h di (Finset.mem_range.mp hdi) dj (Finset.mem_range.mp hdj) hcover
      rw [hrow, hcolumn]
    · rw [not_or] at hcover
      rw [get_uncovered hx hcover.1, get_uncovered hx hcover.2]
  unfold entry
  refine congrArg (fusedActivation p.activation) (congrArg (bias.get [k] + ·) ?_)
  apply Finset.sum_congr rfl
  intro di hdi
  apply Finset.sum_congr rfl
  intro dj hdj
  apply Finset.sum_congr rfl
  intro l _
  rw [htap di hdi dj hdj]

theorem computes_of_sameReads (hsig : self.ConvSignature 1 1 explicit)
    (hp : (self.convParams explicit 1).Positive) (hz : z.Positive)
    (hsizes : z.Of self (self.convParams explicit 1).nchw)
    (hgroups : 1 ≤ groups self explicit) (hdvd : (groups self explicit).toNat ∣ z.outputs)
    (h : SameReads (self.convParams explicit 1) z) : Computes R self explicit z := by
  intro M ng nodes x w bias node hM ht hconv hng hx hw hbias hxdims hwdims hbdims hnode
  obtain ⟨hshape, hentries⟩ := denotes hM ht hconv hng hsig hp hz hsizes hgroups hdvd hx hw hbias
    hxdims hwdims hbdims hnode
  rcases h with ⟨hheight, hwidth, hreads⟩
  rw [hheight, hwidth] at hshape hentries
  refine ⟨hshape, ?_⟩
  intro b i j k hin
  rw [hentries b i j k hin]
  obtain ⟨_, _, ⟨hi, hilt⟩, ⟨hj, hjlt⟩, _⟩ := inside_arrange.mp hin
  obtain ⟨i, rfl⟩ := Int.eq_ofNat_of_zero_le hi
  obtain ⟨j, rfl⟩ := Int.eq_ofNat_of_zero_le hj
  exact entry_congr (hxdims.trans hsizes.input) (hreads i (by omega) j (by omega))

/-! ### The condition is needed -/

/-- The three tensors come from outside, as three operands of the model, and
every parameter can be read. -/
structure FreeInputs (operation : OperationsBase) : Prop where
  float : operation.IsFloat
  free : ∀ index < 3, operation.isInputConst index = false
  distinct : operation.inputIndex 0 ≠ operation.inputIndex 1 ∧
    operation.inputIndex 0 ≠ operation.inputIndex 2 ∧
    operation.inputIndex 1 ≠ operation.inputIndex 2
  reads : Access.stop ∉ (convUses GroupedConv2d.cls operation).flatMap operation.accesses

/-- Where ngraph refuses nothing, the graph is built. -/
theorem FreeInputs.builds (h : FreeInputs self) (haccepts : ∀ op args, ng.accepts op args = true) :
    ∃ node, (exec (answer ng) (GroupedConv2d.createNode self) nodes).outcome = .ok node := by
  have hfollows : Follows Cmd.access (GroupedConv2d.createNode self) _ := uses_convNode
  exact builds_of_follows hfollows h.reads haccepts

/-- Every operand as a parameter node. -/
def parameterNodes : NgraphNodes where
  mOutputAtOperandIndex index := some (.mk (.parameter index .f32 []) [], 0)

/-- The tensors of the first three inputs. -/
def tensorsAt (operation : OperationsBase) (x w bias : Tensor R) (operand : Nat) : Tensor R :=
  if operand = operation.inputIndex 0 then x
  else if operand = operation.inputIndex 1 then w
  else bias

omit [LinearOrder R] in
/-- An input that is not constant and not quantized is its parameter. -/
theorem FreeInputs.inputDenotes [LinearOrder R] [FloorRing R] (h : FreeInputs self) {ng : Ngraph}
    {index : Nat} (hindex : index < 3) (inputs : Nat → Tensor R) :
    self.InputDenotes ng (reference inputs) parameterNodes index
      (inputs (self.inputIndex index)) := by
  have hconst : self.sModelInfo.isOperandLifeTimeConst (self.inputIndex index) = false :=
    h.free index hindex
  have hquantized : (self.sModelInfo.getOperandType (self.inputIndex index)).isQuantized =
      false := by
    rcases h.float index hindex with hfloat | hfloat
    · have htype : self.sModelInfo.getOperandType (self.inputIndex index) = .tensorFloat32 := hfloat
      rw [htype]
      rfl
    · have htype : self.sModelInfo.getOperandType (self.inputIndex index) = .tensorFloat16 := hfloat
      rw [htype]
      rfl
  unfold OperationsBase.InputDenotes OperationsBase.getInputNode
  simp only [hconst, hquantized, Bool.false_eq_true, if_false, Bool.and_false]
  refine Returns.bind (Q := (· = (.mk (.parameter (self.inputIndex index) .f32 []) [], 0)))
    (returns_getOperationOutput rfl) fun output houtput => returns_pure ?_
  rw [houtput]
  rfl

section Ordered

variable [IsStrictOrderedRing R]

@[simp] theorem fusedActivation_zero (code : Int) : fusedActivation code (0 : R) = 0 := by
  unfold fusedActivation
  split
  · simp
  split
  · simp
  split <;> simp

@[simp] theorem fusedActivation_one (code : Int) : fusedActivation code (1 : R) = 1 := by
  have hneg : (-1 : R) ≤ 1 := by
    have h : (0 : R) ≤ 1 := zero_le_one
    linarith
  have hsix : (1 : R) ≤ 6 := by norm_num
  unfold fusedActivation
  split
  · simp
  split
  · simp [hneg]
  split <;> simp [hsix]

/-- With one tap, no bias and one cell, an entry tells whether the tap reads
the cell. -/
theorem entry_single {p : ConvParams} {m : Nat} {vertical horizontal : Window} {i j : Int}
    {di dj : Nat} {row column : Int} (hz : z.Positive) (hdi : di < z.filterHeight)
    (hdj : dj < z.filterWidth) (hcover : z.Covers row column) :
    entry p z m vertical horizontal
      (Tensor.single (arrange p.nchw z.batch z.height z.width z.depth)
        (arrange p.nchw 0 row column 0) : Tensor R)
      (Tensor.single [z.outputs, z.filterHeight, z.filterWidth, z.filterDepth] [0, di, dj, 0])
      (Tensor.ofFn [z.outputs] fun _ => 0) 0 i j 0 =
      if vertical.coord i di = row ∧ horizontal.coord j dj = column then 1 else 0 := by
  have hbatch := hz.batch
  have hdepth := hz.depth
  have houtputs := hz.outputs
  have hfilterDepth := hz.filterDepth
  have hin : Inside [z.outputs, z.filterHeight, z.filterWidth, z.filterDepth]
      [0, (di : Int), (dj : Int), ((0 : Nat) : Int)] :=
    ⟨⟨by omega, by omega⟩, ⟨by omega, by omega⟩, ⟨by omega, by omega⟩, ⟨by omega, by omega⟩,
      trivial⟩
  have hcell : Inside (arrange p.nchw z.batch z.height z.width z.depth)
      (arrange p.nchw 0 row column 0) :=
    inside_arrange.mpr ⟨⟨by omega, by omega⟩, ⟨by omega, by omega⟩, hcover.1, hcover.2, trivial⟩
  have hsum := Tensor.sum_single_tap (R := R) (f := fun a b q =>
    (Tensor.single (arrange p.nchw z.batch z.height z.width z.depth)
      (arrange p.nchw 0 row column 0) : Tensor R).get (arrange p.nchw 0 (vertical.coord i a)
        (horizontal.coord j b) (0 / m * z.filterDepth + q))) hin
  have hsame : arrange p.nchw 0 (vertical.coord i di) (horizontal.coord j dj)
      (0 / (m : Int) * z.filterDepth + 0) = arrange p.nchw 0 row column 0 ↔
      vertical.coord i di = row ∧ horizontal.coord j dj = column := by
    cases p.nchw <;> simp [arrange]
  have hbias : (Tensor.ofFn [z.outputs] fun _ => 0 : Tensor R).get [0] = 0 := by
    have hzero : Inside [z.outputs] [0] := ⟨⟨by omega, by omega⟩, trivial⟩
    rw [Tensor.get_ofFn hzero]
  unfold entry
  rw [hbias, zero_add]
  have hzero : ((0 : Nat) : Int) = 0 := rfl
  rw [hzero] at hsum
  rw [hsum, Tensor.get_single hcell]
  by_cases hread : vertical.coord i di = row ∧ horizontal.coord j dj = column
  · rw [if_pos hread, if_pos (hsame.mpr hread), fusedActivation_one]
  · rw [if_neg hread, if_neg (mt hsame.mp hread), fusedActivation_zero]

variable [FloorRing R]

/-- With free inputs there is a tensor that both descriptions give for any
three tensors of the right shapes. -/
theorem exists_both (hsig : self.ConvSignature 1 1 explicit)
    (hp : (self.convParams explicit 1).Positive) (hz : z.Positive)
    (hsizes : z.Of self (self.convParams explicit 1).nchw)
    (hgroups : 1 ≤ groups self explicit) (hdvd : (groups self explicit).toNat ∣ z.outputs)
    (hfree : FreeInputs self) (h : Computes R self explicit z)
    (hx : x.shape = self.getInputOperandDimensions 0)
    (hw : w.shape = self.getInputOperandDimensions 1)
    (hbias : bias.shape = self.getInputOperandDimensions 2) :
    let p := self.convParams explicit 1
    let m := z.outputs / (groups self explicit).toNat
    ∃ t, IsConvolution p z m (p.vertical z.height z.filterHeight)
        (p.horizontal z.width z.filterWidth) x w bias t ∧
      IsConvolution p z m (p.horizontal z.height z.filterHeight)
        (p.vertical z.width z.filterWidth) x w bias t := by
  intro p m
  rcases hfree.distinct with ⟨h01, h02, h12⟩
  have hin0 : self.InputDenotes (.ofMeaning (reference (tensorsAt self x w bias)))
      (reference (tensorsAt self x w bias)) parameterNodes 0 x := by
    have hinput := @FreeInputs.inputDenotes _ _ _ _ _ hfree
      (.ofMeaning (reference (tensorsAt self x w bias))) 0 (by omega) (tensorsAt self x w bias)
    simpa [tensorsAt] using hinput
  have hin1 : self.InputDenotes (.ofMeaning (reference (tensorsAt self x w bias)))
      (reference (tensorsAt self x w bias)) parameterNodes 1 w := by
    have hinput := @FreeInputs.inputDenotes _ _ _ _ _ hfree
      (.ofMeaning (reference (tensorsAt self x w bias))) 1 (by omega) (tensorsAt self x w bias)
    simpa [tensorsAt, Ne.symm h01] using hinput
  have hin2 : self.BiasDenotes (.ofMeaning (reference (tensorsAt self x w bias)))
      (reference (tensorsAt self x w bias)) parameterNodes bias := by
    have hinput := @FreeInputs.inputDenotes _ _ _ _ _ hfree
      (.ofMeaning (reference (tensorsAt self x w bias))) 2 (by omega) (tensorsAt self x w bias)
    apply hfree.float.biasDenotes
    simpa [tensorsAt, Ne.symm h02, Ne.symm h12] using hinput
  obtain ⟨node, hnode⟩ := @FreeInputs.builds (.ofMeaning (reference (tensorsAt self x w bias)))
    parameterNodes self hfree fun _ _ => rfl
  refine ⟨node.denote (reference (tensorsAt self x w bias)) 0, ?_, ?_⟩
  · exact h _ _ _ x w bias node reference_addsBias reference_transposes reference_groupConvolves
      (Ngraph.ofMeaning_infers _) hin0 hin1 hin2 hx hw hbias hnode
  · exact denotes reference_addsBias reference_transposes reference_groupConvolves
      (Ngraph.ofMeaning_infers _) hsig hp hz hsizes hgroups hdvd hin0 hin1 hin2 hx hw hbias hnode

omit [CommRing R] [LinearOrder R] [IsStrictOrderedRing R] [FloorRing R] in
theorem arrange_inj {nchw : Bool} {n h w c n' h' w' c' : Nat}
    (heq : arrange nchw n h w c = arrange nchw n' h' w' c') : h = h' ∧ w = w' := by
  cases nchw
  · simp only [arrange, Bool.false_eq_true, if_false, List.cons.injEq, and_true] at heq
    exact ⟨heq.2.1, heq.2.2.1⟩
  · simp only [arrange, if_true, List.cons.injEq, and_true] at heq
    exact heq.2.2

theorem sameReads_of_computes (hsig : self.ConvSignature 1 1 explicit)
    (hp : (self.convParams explicit 1).Positive) (hz : z.Positive)
    (hsizes : z.Of self (self.convParams explicit 1).nchw)
    (hgroups : 1 ≤ groups self explicit) (hdvd : (groups self explicit).toNat ∣ z.outputs)
    (hfree : FreeInputs self) (h : Computes R self explicit z) :
    SameReads (self.convParams explicit 1) z := by
  generalize hm : z.outputs / (groups self explicit).toNat = m
  have hboth := fun (x w bias : Tensor R) (hx : x.shape = _) (hw : w.shape = _)
    (hbias : bias.shape = _) =>
    exists_both hsig hp hz hsizes hgroups hdvd hfree h hx hw hbias
  rw [hm] at hboth
  generalize self.convParams explicit 1 = p at *
  -- the shapes, on any tensors
  obtain ⟨t, hnnapi, hgraph⟩ := hboth (Tensor.ofFn _ fun _ => 0) (Tensor.ofFn _ fun _ => 0)
    (Tensor.ofFn _ fun _ => 0) rfl rfl rfl
  obtain ⟨hheight, hwidth⟩ := arrange_inj (hgraph.1.symm.trans hnnapi.1)
  refine ⟨hheight, hwidth, ?_⟩
  intro i hi j hj di hdi dj hdj hcover
  -- the entry at this position, with one tap and one cell
  have hentry : ∀ row column, z.Covers row column →
      (((p.vertical z.height z.filterHeight).coord i di = row ∧
        (p.horizontal z.width z.filterWidth).coord j dj = column) ↔
      ((p.horizontal z.height z.filterHeight).coord i di = row ∧
        (p.vertical z.width z.filterWidth).coord j dj = column)) := by
    intro row column hcell
    obtain ⟨t, hnnapi, hgraph⟩ := hboth
      (Tensor.single (arrange p.nchw z.batch z.height z.width z.depth)
        (arrange p.nchw 0 row column 0))
      (Tensor.single [z.outputs, z.filterHeight, z.filterWidth, z.filterDepth] [0, di, dj, 0])
      (Tensor.ofFn [z.outputs] fun _ => 0) hsizes.input.symm hsizes.filter.symm hsizes.bias.symm
    have hbatch := hz.batch
    have houtputs := hz.outputs
    have hin : Inside (arrange p.nchw z.batch
        ((p.vertical z.height z.filterHeight).outputSize z.height z.filterHeight)
        ((p.horizontal z.width z.filterWidth).outputSize z.width z.filterWidth) z.outputs)
        (arrange p.nchw 0 i j 0) :=
      inside_arrange.mpr ⟨⟨by omega, by omega⟩, ⟨by omega, by omega⟩, ⟨by omega, by omega⟩,
        ⟨by omega, by omega⟩, trivial⟩
    have hleft := hnnapi.2 0 i j 0 hin
    have hright := hgraph.2 0 i j 0 (by rw [hheight, hwidth]; exact hin)
    rw [hleft, entry_single hz hdi hdj hcell, entry_single hz hdi hdj hcell] at hright
    by_cases h1 : (p.vertical z.height z.filterHeight).coord i di = row ∧
        (p.horizontal z.width z.filterWidth).coord j dj = column
    · rw [if_pos h1] at hright
      refine ⟨fun _ => ?_, fun _ => h1⟩
      by_contra h2
      rw [if_neg h2] at hright
      exact one_ne_zero hright
    · rw [if_neg h1] at hright
      refine ⟨fun h => absurd h h1, fun h2 => ?_⟩
      rw [if_pos h2] at hright
      exact absurd hright zero_ne_one
  rcases hcover with hcell | hcell
  · exact (hentry _ _ hcell).mp ⟨rfl, rfl⟩
  · obtain ⟨hrow, hcolumn⟩ := (hentry _ _ hcell).mpr ⟨rfl, rfl⟩
    exact ⟨hrow.symm, hcolumn.symm⟩

/-- **When `GROUPED_CONV_2D` is NNAPI's.**  Where the parameters of the two axes
read the same cells the graph computes NNAPI's grouped convolution of its
tensors, and where the tensors are free it does so in no other case. -/
theorem computes_iff_sameReads (hsig : self.ConvSignature 1 1 explicit)
    (hp : (self.convParams explicit 1).Positive) (hz : z.Positive)
    (hsizes : z.Of self (self.convParams explicit 1).nchw)
    (hgroups : 1 ≤ groups self explicit) (hdvd : (groups self explicit).toNat ∣ z.outputs) :
    (SameReads (self.convParams explicit 1) z → Computes R self explicit z) ∧
      (FreeInputs self →
        (Computes R self explicit z ↔ SameReads (self.convParams explicit 1) z)) := by
  have henough := computes_of_sameReads (R := R) hsig hp hz hsizes hgroups hdvd
  refine ⟨henough, fun hfree => ⟨?_, henough⟩⟩
  exact sameReads_of_computes hsig hp hz hsizes hgroups hdvd hfree

end Ordered

/-! ### Two small operations -/

/-- Two groups, of one channel each. -/
def groupedTensors : List (List Nat) := [[1, 3, 3, 2], [2, 2, 2, 1], [2]]

def groupedSizes : Sizes where
  batch := 1
  height := 3
  width := 3
  depth := 2
  outputs := 2
  filterHeight := 2
  filterWidth := 2
  filterDepth := 1

/-- Explicit padding: none, strides one, two groups, no activation. -/
def sampleGrouped (strideHeight : UInt8) : OperationsBase :=
  sampleOperation .groupedConv2d groupedTensors [(.int32, 0), (.int32, 0), (.int32, 0),
    (.int32, 0), (.int32, 1), (.int32, strideHeight), (.int32, 2), (.int32, 0)]

theorem sampleGrouped_computes : Computes Int (sampleGrouped 1) true groupedSizes :=
  ((computes_iff_sameReads (.explicit (by decide) (by decide) (by decide))
    ⟨by decide, by decide, by decide, by decide⟩
    ⟨by decide, by decide, by decide, by decide, by decide, by decide⟩ ⟨rfl, rfl, rfl⟩
    (by decide) (by decide)).2 ⟨by decide, by decide, by decide, by decide⟩).mpr (by decide)

/-- A stride of two along the height is taken along the width. -/
theorem sampleGrouped_exchanges :
    ¬ ∀ (self : OperationsBase) (explicit : Bool) (z : Sizes),
      self.ConvSignature 1 1 explicit → (self.convParams explicit 1).Positive → z.Positive →
      z.Of self (self.convParams explicit 1).nchw → 1 ≤ groups self explicit →
      (groups self explicit).toNat ∣ z.outputs → Computes Int self explicit z := by
  intro h
  have hcomputes := h (sampleGrouped 2) true groupedSizes
    (.explicit (by decide) (by decide) (by decide)) ⟨by decide, by decide, by decide, by decide⟩
    ⟨by decide, by decide, by decide, by decide, by decide, by decide⟩ ⟨rfl, rfl, rfl⟩ (by decide)
    (by decide)
  have hconvolution := hcomputes (reference (sampleInputs groupedTensors)) (.ofMeaning _)
    (sampleNodes groupedTensors) (sampleInputs groupedTensors 0) (sampleInputs groupedTensors 1)
    (sampleInputs groupedTensors 2) (returnedNode (exec (answer (.ofMeaning
      (reference (sampleInputs groupedTensors)))) (GroupedConv2d.createNode (sampleGrouped 2))
      (sampleNodes groupedTensors))) reference_addsBias reference_transposes
    reference_groupConvolves (Ngraph.ofMeaning_infers _) (fun _ h => by cases h; exact ⟨rfl, rfl⟩)
    (fun _ h => by cases h; exact ⟨rfl, rfl⟩) (fun _ h => by cases h; exact ⟨rfl, rfl⟩)
    rfl rfl rfl rfl
  have hshape : [1, 2, 1, 2] = [1, 1, 2, 2] := hconvolution.1
  cases hshape

end GroupedConv2d

end NnHal
