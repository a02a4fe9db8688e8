import NnHal.NnapiConvolutions

/-!
# What `Conv2d` and `DepthwiseConv2d` compute

The graph each of them builds denotes NNAPI's definition of the operation, for
both signatures, both layouts and all sizes.
-/

namespace NnHal

open Command Tensors
open scoped BigOperators

/-- The three tensors of a convolution are floating-point. -/
def OperationsBase.IsFloat (self : OperationsBase) : Prop :=
  ∀ index < 3, (self.getInputOperand index).type = .tensorFloat32 ∨
    (self.getInputOperand index).type = .tensorFloat16

instance (self : OperationsBase) : Decidable self.IsFloat :=
  inferInstanceAs (Decidable (∀ index < 3, _ ∨ _))

/-- The driver's `validate` accepts the operation. -/
def Accepts (ng : Ngraph) (nodes : NgraphNodes) (validate : Gen Bool) : Prop :=
  (exec (answer ng) validate nodes).outcome = .ok true

section Common

variable {R : Type} [CommRing R] {M : Meaning R} {ng : Ngraph}
variable {nodes : NgraphNodes} {self : OperationsBase} {bias : Tensor R}

/-- The bias of a floating-point convolution is used as it is. -/
theorem OperationsBase.IsFloat.biasDenotes (hfloat : self.IsFloat)
    (hbias : self.InputDenotes ng M nodes 2 bias) : self.BiasDenotes ng M nodes bias := by
  apply hbias.bind
  intro node hnode
  have h0 := hfloat 0 (by omega)
  have h1 := hfloat 1 (by omega)
  have hchannel : self.checkInputOperandType 1 .tensorQuant8SymmPerChannel = false := by
    rcases h1 with h | h <;> simp [OperationsBase.checkInputOperandType, h]
  have hasymm : ¬ (self.checkInputOperandType 0 .tensorQuant8Asymm = true ∨
      self.checkInputOperandType 0 .tensorQuant8AsymmSigned = true) := by
    rcases h0 with h | h <;> simp [OperationsBase.checkInputOperandType, h]
  unfold OperationsBase.convBias
  simp only [hchannel, Bool.false_eq_true, if_false, if_neg hasymm]
  exact returns_pure hnode

/-- A list of four sizes in a layout. -/
theorem exists_arrange {dims : List Nat} (h : dims.length = 4) (nchw : Bool) :
    ∃ n h w c, dims = arrange nchw n h w c := by
  obtain ⟨d0, d1, d2, d3, rfl⟩ : ∃ d0 d1 d2 d3, dims = [d0, d1, d2, d3] := by
    match dims, h with
    | [d0, d1, d2, d3], _ => exact ⟨d0, d1, d2, d3, rfl⟩
  cases nchw
  · exact ⟨d0, d1, d2, d3, rfl⟩
  · exact ⟨d0, d2, d3, d1, rfl⟩

theorem Conv2d.accepts_ranks (h : Accepts ng nodes (Conv2d.validate self)) :
    (self.getInputOperandDimensions 0).length = 4 ∧
      (self.getInputOperandDimensions 1).length = 4 := by
  unfold Accepts Conv2d.validate at h
  by_cases hranks : convRanks self
  · simpa [convRanks] using hranks
  · rw [if_pos hranks] at h
    cases h

end Common

/-! ### A small operation -/

/-- An operation whose tensors are model inputs and whose scalars are
constants of the model. -/
def sampleOperation (type : OperationType) (tensors : List (List Nat))
    (scalars : List (OperandType × UInt8)) : OperationsBase where
  sModelInfo :=
    { mModel :=
        { operands :=
            tensors.map (fun dimensions =>
              { type := .tensorFloat32, dimensions, lifetime := .subgraphInput }) ++
            scalars.mapIdx fun k scalar =>
              { type := scalar.1, lifetime := .constantCopy
                location := { offset := 4 * k, length := if scalar.1 = .bool then 1 else 4 } }
          operations :=
            [{ type, inputs := List.range (tensors.length + scalars.length), outputs := [] }]
          inputIndexes := List.range tensors.length
          outputIndexes := []
          operandValues := scalars.flatMap fun scalar => [scalar.2, 0, 0, 0] } }
  sPluginType := .cpu
  mNnapiOperationIndex := 0
  mDefaultOutputIndex := 0

/-- Its model inputs as parameter nodes. -/
def sampleNodes (tensors : List (List Nat)) : NgraphNodes where
  mOutputAtOperandIndex index :=
    tensors[index]?.map fun dimensions => (.mk (.parameter index .f32 dimensions) [], 0)

/-- Integer tensors of these shapes. -/
def sampleInputs (tensors : List (List Nat)) (operand : Nat) : Tensor Int :=
  Tensor.ofFn (tensors.getD operand []) fun index => flat (tensors.getD operand []) index

/-- The node a run returned. -/
def returnedNode (run : Ran NgraphNodes Cmd Stop Node) : Node :=
  match run.outcome with
  | .ok node => node
  | .error _ => default

/-! ## `CONV_2D` -/

section Conv2d

variable {R : Type} [CommRing R] {M : Meaning R} {ng : Ngraph}
variable {nodes : NgraphNodes} {self : OperationsBase}

/-- Entries of the transposed filter. -/
theorem get_filter_ohwi {w : Tensor R} {o fh fw c : Nat} (hw : w.shape = [o, fh, fw, c])
    {k l di dj : Int} :
    (w.transpose [0, 3, 1, 2]).get [k, l, di, dj] = w.get [k, di, dj, l] := by
  rw [Tensor.get_transpose (isOrder_nchw (by rw [hw]; rfl)) (by rw [hw]; rfl)]
  rfl

theorem shape_filter_ohwi {w : Tensor R} {o fh fw c : Nat} (hw : w.shape = [o, fh, fw, c]) :
    (w.transpose [0, 3, 1, 2]).shape = [o, c, fh, fw] := by
  rw [Tensor.shape_transpose, hw]
  rfl

/-- **What `CONV_2D` computes.**  Every output entry is the activated bias plus
the strided, dilated and zero-padded sum over the taps and the channels. -/
theorem conv2d_denotes [LinearOrder R] (hM : M.AddsBias) (ht : M.Transposes) (hconv : M.Convolves)
    (hng : ng.Infers M) {explicit : Bool} (hsig : self.ConvSignature 0 3 explicit)
    (hfloat : self.IsFloat) (hvalid : Accepts ng nodes (Conv2d.validate self))
    (hp : (self.convParams explicit 0).Positive) {x w bias : Tensor R}
    (hx : self.InputDenotes ng M nodes 0 x) (hw : self.InputDenotes ng M nodes 1 w)
    (hbias : self.InputDenotes ng M nodes 2 bias)
    (hxdims : x.shape = self.getInputOperandDimensions 0)
    (hwdims : w.shape = self.getInputOperandDimensions 1)
    (hbdims : bias.shape = self.getInputOperandDimensions 2)
    (hdepth : bias.shape = [w.shape.getD 0 0]) {node : Node}
    (hnode : (exec (answer ng) (Conv2d.createNode self) nodes).outcome = .ok node) :
    let p := self.convParams explicit 0
    ∃ n h wd c o fh fw ci, x.shape = arrange p.nchw n h wd c ∧ w.shape = [o, fh, fw, ci] ∧
      HasEntries p.nchw n ((p.vertical h fh).outputSize h fh)
        ((p.horizontal wd fw).outputSize wd fw) o
        (fun b i j k => fusedActivation p.activation (bias.get [k] +
          ∑ di ∈ Finset.range fh, ∑ dj ∈ Finset.range fw, ∑ l ∈ Finset.range ci,
            x.get (arrange p.nchw b ((p.vertical h fh).coord i di)
              ((p.horizontal wd fw).coord j dj) l) * w.get [k, di, dj, l]))
        (node.denote M 0) := by
  intro p
  obtain ⟨hrank0, hrank1⟩ := Conv2d.accepts_ranks hvalid
  rw [← hxdims] at hrank0
  rw [← hwdims] at hrank1
  obtain ⟨n, h, wd, c, hxshape⟩ := exists_arrange hrank0 p.nchw
  obtain ⟨o, fh, fw, ci, hwshape⟩ := exists_arrange hrank1 false
  replace hwshape : w.shape = [o, fh, fw, ci] := hwshape
  replace hdepth : bias.shape = [o] := by rw [hdepth, hwshape]; rfl
  have hinput := shape_toNchw hxshape
  have hfilter := shape_filter_ohwi hwshape
  have hy : (Tensor.convolve (p.vertical h fh) (p.horizontal wd fw)
      (toNchw p.nchw x) (w.transpose [0, 3, 1, 2])).shape =
      [n, o, (p.vertical h fh).outputSize h fh, (p.horizontal wd fw).outputSize wd fw] :=
    Tensor.shape_convolve hinput hfilter
  refine ⟨n, h, wd, c, o, fh, fw, ci, hxshape, hwshape, ?_⟩
  have horder : Conv2d.cls.filterOrder.order =
      [0, 3, 1, 2].map fun (a : Nat) => (a : Int) := rfl
  have hreturns := returns_convNode hM ht hng Conv2d.cls_follows hsig hp horder
    (isOrder_nchw hrank1) hx hw (hfloat.biasDenotes hbias) hxshape
    hdepth (by rw [← hbdims, hdepth]) hy ?_
  · obtain ⟨_, hshape, hentries⟩ := hreturns node hnode
    refine ⟨hshape, ?_⟩
    intro b i j k hin
    rw [hentries b i j k hin]
    beta_reduce
    rw [Tensor.get_convolve hinput hfilter (inside_arrange.mp hin), add_comm]
    simp only [get_toNchw hxshape, get_filter_ohwi hwshape]
    rfl
  · intro l inputNode filterNode attrs hl hcounts hin hfil hattrs
    refine returns_make ?_
    have hmeaning := hconv attrs _ _ hinput hfilter
    rw [(hattrs h fh).1, (hattrs wd fw).2] at hmeaning
    have hdenote : (Node.mk (.convolution attrs) [(inputNode, 0), (filterNode, 0)]).denote M 0 =
        M (.convolution attrs) [inputNode.denote M 0, filterNode.denote M 0] 0 := rfl
    rw [hdenote, hin, hfil]
    exact hmeaning

/-- Shapes of an input, a filter and a bias. -/
def sampleTensors : List (List Nat) := [[1, 3, 2, 1], [2, 2, 1, 1], [2]]

/-- Explicit padding: no padding on the left and right, none at the top, one row
at the bottom, strides one and two, and ReLU. -/
def sampleConv2d : OperationsBase :=
  sampleOperation .conv2d sampleTensors [(.int32, 0), (.int32, 0), (.int32, 0), (.int32, 1),
    (.int32, 1), (.int32, 2), (.int32, 1)]

theorem sampleConv2d_denotes :
    let M := reference (sampleInputs sampleTensors)
    let p := sampleConv2d.convParams true 0
    let x := sampleInputs sampleTensors 0
    let w := sampleInputs sampleTensors 1
    let bias := sampleInputs sampleTensors 2
    ∃ n h wd c o fh fw ci, x.shape = arrange p.nchw n h wd c ∧ w.shape = [o, fh, fw, ci] ∧
      HasEntries p.nchw n ((p.vertical h fh).outputSize h fh)
        ((p.horizontal wd fw).outputSize wd fw) o
        (fun b i j k => fusedActivation p.activation (bias.get [k] +
          ∑ di ∈ Finset.range fh, ∑ dj ∈ Finset.range fw, ∑ l ∈ Finset.range ci,
            x.get (arrange p.nchw b ((p.vertical h fh).coord i di)
              ((p.horizontal wd fw).coord j dj) l) * w.get [k, di, dj, l]))
        ((returnedNode (exec (answer (.ofMeaning M)) (Conv2d.createNode sampleConv2d)
          (sampleNodes sampleTensors))).denote M 0) :=
  conv2d_denotes reference_addsBias reference_transposes reference_convolves
    (Ngraph.ofMeaning_infers _) (.explicit (by decide) (by decide) (by decide))
    (by decide) (by unfold Accepts; rfl)
    ⟨by decide, by decide, by decide, by decide⟩ (fun _ h => by cases h; exact ⟨rfl, rfl⟩)
    (fun _ h => by cases h; exact ⟨rfl, rfl⟩) (fun _ h => by cases h; exact ⟨rfl, rfl⟩)
    rfl rfl rfl rfl rfl

end Conv2d

/-! ## `DEPTHWISE_CONV_2D` -/

/-- The bytes of an input fit the `uint32_t` length of its location. -/
def OperationsBase.FitsLocation (self : OperationsBase) (index : Nat) : Prop :=
  (self.getInputOperandDimensions index).prod *
    (self.getInputOperand index).type.elementSize < 2 ^ 32

instance (self : OperationsBase) (index : Nat) : Decidable (self.FitsLocation index) :=
  inferInstanceAs (Decidable (_ < _))

section DepthwiseConv2d

variable {R : Type} [CommRing R] {M : Meaning R} {ng : Ngraph}
variable {nodes : NgraphNodes} {self : OperationsBase}

theorem isOrder_depthwise {rank : Nat} (h : rank = 4) : IsOrder [3, 0, 1, 2] rank := by
  subst h
  decide

theorem shape_filter_depthwise {w : Tensor R} {o fh fw : Nat} (hw : w.shape = [1, fh, fw, o]) :
    (w.transpose [3, 0, 1, 2]).shape = [o, 1, fh, fw] := by
  rw [Tensor.shape_transpose, hw]
  rfl

theorem get_filter_depthwise {w : Tensor R} {o fh fw : Nat} (hw : w.shape = [1, fh, fw, o])
    {k l di dj : Int} :
    (w.transpose [3, 0, 1, 2]).get [k, l, di, dj] = w.get [l, di, dj, k] := by
  rw [Tensor.get_transpose (isOrder_depthwise (by rw [hw]; rfl)) (by rw [hw]; rfl)]
  rfl

/-- An axis of a filter that fits its location is an `int32_t`. -/
theorem OperationsBase.FitsLocation.depth_lt (hfits : self.FitsLocation 1)
    (hfloat : self.IsFloat) {c m fh fw : Nat}
    (hdims : self.getInputOperandDimensions 1 = [1, fh, fw, c * m])
    (hm : 0 < m) (hfh : 0 < fh) (hfw : 0 < fw) : c < 2 ^ 31 := by
  unfold OperationsBase.FitsLocation at hfits
  rw [hdims] at hfits
  have hsize : 2 ≤ (self.getInputOperand 1).type.elementSize := by
    rcases hfloat 1 (by omega) with h | h <;> rw [h] <;> decide
  have hprod : c ≤ [1, fh, fw, c * m].prod := by
    simp only [List.prod_cons, List.prod_nil, mul_one, one_mul]
    calc c = 1 * (1 * (c * 1)) := by ring
      _ ≤ fh * (fw * (c * m)) :=
        Nat.mul_le_mul hfh (Nat.mul_le_mul hfw (Nat.mul_le_mul le_rfl hm))
  have hbytes : c * 2 ≤ [1, fh, fw, c * m].prod * (self.getInputOperand 1).type.elementSize :=
    Nat.mul_le_mul hprod hsize
  omega

/-- **What `DEPTHWISE_CONV_2D` computes.**  Output channel `c * M + m` is input
channel `c` under the filter's channel of that number. -/
theorem depthwiseConv2d_denotes [LinearOrder R] (hM : M.AddsBias) (ht : M.Transposes)
    (hconv : M.GroupConvolves) (hng : ng.Infers M) {explicit : Bool}
    (hsig : self.ConvSignature 1 3 explicit) (hfloat : self.IsFloat)
    (hp : (self.convParams explicit 1).Positive) {x w bias : Tensor R}
    (hx : self.InputDenotes ng M nodes 0 x) (hw : self.InputDenotes ng M nodes 1 w)
    (hbias : self.InputDenotes ng M nodes 2 bias)
    (hxdims : x.shape = self.getInputOperandDimensions 0)
    (hwdims : w.shape = self.getInputOperandDimensions 1)
    (hbdims : bias.shape = self.getInputOperandDimensions 2) {n h wd C multiplier fh fw : Nat}
    (hxshape : x.shape = arrange (self.convParams explicit 1).nchw n h wd C)
    (hwshape : w.shape = [1, fh, fw, C * multiplier]) (hbshape : bias.shape = [C * multiplier])
    (hC : 1 ≤ C) (hmultiplier : 1 ≤ multiplier) (hfh : 1 ≤ fh) (hfw : 1 ≤ fw)
    (hfits : self.FitsLocation 1) {node : Node}
    (hnode : (exec (answer ng) (DepthwiseConv2d.createNode self) nodes).outcome = .ok node) :
    let p := self.convParams explicit 1
    let oh := (p.vertical h fh).outputSize h fh
    let ow := (p.horizontal wd fw).outputSize wd fw
    (node.denote M 0).shape = arrange p.nchw n oh ow (C * multiplier) ∧
      ∀ (b i j : Int) (c m : Nat), 0 ≤ b ∧ b < n → 0 ≤ i ∧ i < oh → 0 ≤ j ∧ j < ow →
        c < C → m < multiplier →
        (node.denote M 0).get (arrange p.nchw b i j ((c * multiplier + m : Nat) : Int)) =
          fusedActivation p.activation (bias.get [((c * multiplier + m : Nat) : Int)] +
            ∑ di ∈ Finset.range fh, ∑ dj ∈ Finset.range fw,
              x.get (arrange p.nchw b ((p.vertical h fh).coord i di)
                ((p.horizontal wd fw).coord j dj) c) *
                w.get [0, di, dj, ((c * multiplier + m : Nat) : Int)]) := by
  intro p oh ow
  have hrank : w.shape.length = 4 := by rw [hwshape]; rfl
  have hinput := shape_toNchw hxshape
  have hfilter := shape_filter_depthwise hwshape
  have hdepth : C < 2 ^ 31 :=
    hfits.depth_lt hfloat (by rw [← hwdims, hwshape]) hmultiplier hfh hfw
  have hchannel : toSizeT (toInt32 C) = C := by
    have hint : toInt32 (C : Int) = C := by
      unfold toInt32
      rw [Int.bmod_eq_of_le (by omega) (by omega)]
    rw [hint, toSizeT_of_pos (by omega) (by omega)]
    omega
  have hpos : ∀ d ∈ [C, multiplier, 1, fh, fw], d ≠ 0 := by
    intro d hd
    simp only [List.mem_cons, List.not_mem_nil, or_false] at hd
    omega
  have hy := @Tensor.shape_groupConvolve _ _ (p.vertical h fh) (p.horizontal wd fw) _
    ((w.transpose [3, 0, 1, 2]).reshape [C, multiplier, 1, fh, fw])
    _ _ _ _ _ _ _ _ _ hinput rfl
  have horder : DepthwiseConv2d.cls.filterOrder.order =
      [3, 0, 1, 2].map fun (a : Nat) => (a : Int) := rfl
  have hreturns := returns_convNode hM ht hng DepthwiseConv2d.cls_follows hsig hp horder
    (isOrder_depthwise hrank) hx hw (hfloat.biasDenotes hbias) hxshape
    hbshape (by rw [← hbdims, hbshape]) hy ?_
  · obtain ⟨_, hshape, hentries⟩ := hreturns node hnode
    refine ⟨hshape, ?_⟩
    intro b i j c m hb hi hj hc hm
    have hk : c * multiplier + m < C * multiplier := by
      calc c * multiplier + m < (c + 1) * multiplier := by rw [Nat.add_mul]; omega
        _ ≤ C * multiplier := Nat.mul_le_mul_right multiplier hc
    have hin : Inside [n, C * multiplier, oh, ow] [b, ((c * multiplier + m : Nat) : Int), i, j] :=
      ⟨hb, ⟨by omega, by omega⟩, hi, hj, trivial⟩
    have hgroup : ((c * multiplier + m : Nat) : Int) / (multiplier : Int) = c := by
      rw [← Int.natCast_ediv, Nat.mul_comm, Nat.mul_add_div (by omega), Nat.div_eq_of_lt hm,
        Nat.add_zero]
    -- only one input channel belongs to a group
    have htap : ∀ di ∈ Finset.range fh, ∀ dj ∈ Finset.range fw,
        ∑ l ∈ Finset.range 1, (toNchw p.nchw x).get
            [b, ((c * multiplier + m : Nat) : Int) / (multiplier : Int) * (1 : Nat) + (l : Nat),
              (p.vertical h fh).coord i di, (p.horizontal wd fw).coord j dj] *
          ((w.transpose [3, 0, 1, 2]).reshape [C, multiplier, 1, fh, fw]).get
            [((c * multiplier + m : Nat) : Int) / (multiplier : Int),
              ((c * multiplier + m : Nat) : Int) % (multiplier : Int), (l : Nat), di, dj] =
        x.get (arrange p.nchw b ((p.vertical h fh).coord i di)
            ((p.horizontal wd fw).coord j dj) c) *
          w.get [0, di, dj, ((c * multiplier + m : Nat) : Int)] := by
      intro di hdi dj hdj
      rw [Finset.mem_range] at hdi hdj
      have hfin : Inside [C * multiplier, 1, fh, fw]
          [((c * multiplier + m : Nat) : Int), ((0 : Nat) : Int), di, dj] :=
        ⟨⟨by omega, by omega⟩, ⟨by omega, by omega⟩, ⟨by omega, by omega⟩,
          ⟨by omega, by omega⟩, trivial⟩
      rw [Finset.sum_range_one, Tensor.get_reshape_groups hfilter hfin,
        get_filter_depthwise hwshape, get_toNchw hxshape, hgroup]
      simp only [Nat.cast_zero, Nat.cast_one, mul_one, add_zero]
      rfl
    rw [hentries b i j _ (inside_arrange.mpr hin)]
    beta_reduce
    rw [Tensor.get_groupConvolve hinput rfl hin, add_comm,
      Finset.sum_congr rfl fun di hdi => Finset.sum_congr rfl fun dj hdj => htap di hdi dj hdj]
  · intro l inputNode filterNode attrs hl hcounts hin hfil hattrs
    have hlocal : (if DepthwiseConv2d.cls.dividesByChannel then l.inputChannel
        else l.numberGroups) = some (toInt32 C) := by
      have hdivides : DepthwiseConv2d.cls.dividesByChannel = true := rfl
      have hreads : DepthwiseConv2d.cls.hasChannel = true := rfl
      rw [if_pos hdivides, hcounts.2, if_pos hreads, hl.nchw, ← hxdims, hxshape]
      cases (self.convParams explicit 1).nchw <;> rfl
    have hcore : Returns (answer ng) nodes
        (OperationsBase.convCore DepthwiseConv2d.cls l inputNode filterNode attrs) fun r =>
        r.denote M 0 = Tensor.groupConvolve (p.vertical h fh) (p.horizontal wd fw)
          (inputNode.denote M 0) ((filterNode.denote M 0).reshape [C, multiplier, 1, fh, fw]) :=
      returns_groupedCore hM ht hng hconv rfl hlocal hchannel (by rw [hin]; exact hinput)
        (by rw [hfil]; exact hfilter) hpos (hattrs h fh).1 (hattrs wd fw).2
    rw [hin, hfil] at hcore
    exact hcore

/-- Two channels, two filter channels for each, a filter of height two. -/
def depthwiseTensors : List (List Nat) := [[1, 3, 2, 2], [1, 2, 1, 4], [4]]

/-- Implicit padding, strides one, multiplier two, no activation. -/
def sampleDepthwise : OperationsBase :=
  sampleOperation .depthwiseConv2d depthwiseTensors [(.int32, 1), (.int32, 1), (.int32, 1),
    (.int32, 2), (.int32, 0)]

theorem sampleDepthwise_denotes :
    let M := reference (sampleInputs depthwiseTensors)
    let p := sampleDepthwise.convParams false 1
    let oh := (p.vertical 3 2).outputSize 3 2
    let ow := (p.horizontal 2 1).outputSize 2 1
    let node := returnedNode (exec (answer (.ofMeaning M))
      (DepthwiseConv2d.createNode sampleDepthwise) (sampleNodes depthwiseTensors))
    (node.denote M 0).shape = arrange p.nchw 1 oh ow (2 * 2) ∧
      ∀ (b i j : Int) (c m : Nat), 0 ≤ b ∧ b < (1 : Nat) → 0 ≤ i ∧ i < oh → 0 ≤ j ∧ j < ow →
        c < 2 → m < 2 →
        (node.denote M 0).get (arrange p.nchw b i j ((c * 2 + m : Nat) : Int)) =
          fusedActivation p.activation
            ((sampleInputs depthwiseTensors 2).get [((c * 2 + m : Nat) : Int)] +
            ∑ di ∈ Finset.range 2, ∑ dj ∈ Finset.range 1,
              (sampleInputs depthwiseTensors 0).get (arrange p.nchw b
                ((p.vertical 3 2).coord i di) ((p.horizontal 2 1).coord j dj) c) *
                (sampleInputs depthwiseTensors 1).get [0, di, dj, ((c * 2 + m : Nat) : Int)]) :=
  depthwiseConv2d_denotes reference_addsBias reference_transposes reference_groupConvolves
    (Ngraph.ofMeaning_infers _) (.implicit (by decide) (by decide) (by decide)) (by decide)
    ⟨by decide, by decide, by decide, by decide⟩ (fun _ h => by cases h; exact ⟨rfl, rfl⟩)
    (fun _ h => by cases h; exact ⟨rfl, rfl⟩) (fun _ h => by cases h; exact ⟨rfl, rfl⟩)
    rfl rfl rfl rfl rfl rfl (by decide) (by decide) (by decide) (by decide) (by decide) rfl

end DepthwiseConv2d

end NnHal
