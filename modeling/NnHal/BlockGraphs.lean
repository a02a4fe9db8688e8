import NnHal.Blocks
import NnHal.Resampling
import NnHal.ConvolutionMeanings

/-!
# What the four block operations compute

`SpaceToDepth` and `DepthToSpace` move the positions in the blocks of an image between its rows
and columns and its channels, `SpaceToBatch` and `BatchToSpace` between its rows and columns and
its batches.  In both layouts the graphs are NNAPI's definition and inverses of each other.
-/

namespace NnHal

open Command Tensors

/-! ## The meaning -/

section Meaning

variable {R : Type} [Ring R]

/-- A vector of sizes as a tensor. -/
def sizes (values : List Nat) : Tensor R := Tensor.ofList (values.map fun (a : Nat) => (a : R))

/-- The four operations of ngraph on an NCHW tensor: `SpaceToDepth` and `DepthToSpace` in
`BLOCKS_FIRST` mode, `SpaceToBatch` without padding and `BatchToSpace` without cropping. -/
structure Meaning.MovesBlocks (M : Meaning R) : Prop where
  spaceToDepth : ∀ (x : Tensor R) (b n c h w : Nat), 0 < b → x.shape = [n, c, h * b, w * b] →
    M (.spaceToDepth b) [x] 0 = x.gatherBlocks 1 b b
  depthToSpace : ∀ (x : Tensor R) (b n c h w : Nat), 0 < b → x.shape = [n, b * b * c, h, w] →
    M (.depthToSpace b) [x] 0 = x.spreadBlocks 1 b b
  spaceToBatch : ∀ (x : Tensor R) (bh bw n c h w : Nat), 0 < bh → 0 < bw →
    x.shape = [n, c, h * bh, w * bw] →
    M .spaceToBatch [x, sizes [1, 1, bh, bw], sizes [0, 0, 0, 0], sizes [0, 0, 0, 0]] 0 =
      x.gatherBlocks 0 bh bw
  batchToSpace : ∀ (x : Tensor R) (bh bw n c h w : Nat), 0 < bh → 0 < bw →
    x.shape = [bh * bw * n, c, h, w] →
    M .batchToSpace [x, sizes [1, 1, bh, bw], sizes [0, 0, 0, 0], sizes [0, 0, 0, 0]] 0 =
      x.spreadBlocks 0 bh bw

/-- A constant vector of sizes. -/
theorem Meaning.Transposes.sizes {M : Meaning R} (hM : M.Transposes) (type : ElementType)
    (values : List Nat) :
    M (.constant type [values.length] (values.map fun (a : Nat) => .int a)) [] 0 =
      NnHal.sizes values := by
  have hconstant := hM.constant type (values.map fun (a : Nat) => (a : Int))
  simpa [NnHal.sizes, Function.comp_def] using hconstant

variable {nchw : Bool} {n h w c : Nat} {x y : Tensor R}

theorem fromNchw_toNchw (hx : x.shape = arrange nchw n h w c) :
    fromNchw nchw (toNchw nchw x) = x := by
  cases nchw
  · have hrank : x.shape.length = 4 := by rw [hx]; rfl
    exact Tensor.transpose_transpose (isOrder_nchw hrank) (isOrder_nhwc hrank) rfl rfl
  · rfl

theorem toNchw_fromNchw (hy : y.shape = [n, c, h, w]) : toNchw nchw (fromNchw nchw y) = y := by
  cases nchw
  · have hrank : y.shape.length = 4 := by rw [hy]; rfl
    exact Tensor.transpose_transpose (isOrder_nhwc hrank) (isOrder_nchw hrank) rfl rfl
  · rfl

end Meaning

/-! ## The graphs -/

namespace OperationsBase

variable (self : OperationsBase)

/-- The layout an operation with an optional flag is told. -/
def givenLayout (count index : Nat) : Bool :=
  self.inputsSize = count ∧ self.sModelInfo.scalarValue .uint8 (self.inputIndex index) ≠ 0

end OperationsBase

section Graphs

variable {R : Type} [CommRing R] {M : Meaning R} {ng : Ngraph} {nodes : NgraphNodes}
variable {self : OperationsBase} {n h w c : Nat} {x : Tensor R}

theorem returns_useNchw {count index : Nat} :
    Returns (answer ng) nodes (self.useNchw count index) (· = self.givenLayout count index) := by
  unfold OperationsBase.useNchw OperationsBase.givenLayout
  refine returns_ite (fun hcount => ?_) fun hcount => returns_pure ?_
  · refine returns_parse.bind fun layout hlayout => returns_pure ?_
    rw [hlayout]
    simp [hcount]
  · simp [hcount]

/-- A node between the two transpositions. -/
theorem returns_between (hM : M.Transposes) {nchw : Bool} {input : Node} {op : NodeOp}
    {rest : List Output} {y : Tensor R} {n' h' w' c' : Nat}
    (hx : (input.denote M 0).shape = arrange nchw n h w c)
    (hop : M op (toNchw nchw (input.denote M 0) :: Node.denoteAll M rest) 0 = y)
    (hy : y.shape = [n', c', h', w']) :
    Returns (answer ng) nodes (do
      let inputNode ← transposeUnless nchw .nhwcNchw input
      let outputNode ← makeShared op ((inputNode, 0) :: rest)
      transposeUnless nchw .nchwNhwc outputNode) fun r => r.denote M 0 = fromNchw nchw y := by
  apply (returns_toNchw hM hx).bind
  intro inputNode hinput
  have hdenote : (Node.mk op ((inputNode, 0) :: rest)).denote M 0 = y := by
    rw [Node.denote, Node.denoteAll, Node.denoteOutput, hinput, hop]
  apply Returns.bind (Q := fun r => r.denote M 0 = y) (returns_make hdenote)
  intro r hr
  rw [← hr]
  exact returns_fromNchw hM (by rw [hr, hy])

/-- What an operation on square blocks is given: its block, its layout and its tensor. -/
structure GivesBlock (base : OperationsBase) (ng : Ngraph) (M : Meaning R)
    (nodes : NgraphNodes) (nchw : Bool) (b : Nat) (x : Tensor R) : Prop where
  block : base.sModelInfo.scalarValue .uint32 (base.inputIndex 1) = b
  layout : base.givenLayout 3 2 = nchw
  input : base.InputDenotes ng M nodes 0 x

theorem returns_blockNode (hM : M.Transposes) {nchw : Bool} {op : Nat → NodeOp} {b : Nat}
    {y : Tensor R} {n' h' w' c' : Nat} (hself : GivesBlock self ng M nodes nchw b x)
    (hx : x.shape = arrange nchw n h w c) (hop : M (op b) [toNchw nchw x] 0 = y)
    (hy : y.shape = [n', c', h', w']) :
    Returns (answer ng) nodes (self.blockNode op) fun r => r.denote M 0 = fromNchw nchw y := by
  apply returns_useNchw.bind
  intro useNchw hlayout
  apply hself.input.bind
  intro input hinput
  apply returns_parse.bind
  intro blockSize hblock
  have hsize : blockSize.toNat = b := by
    rw [hblock, hself.block]
    rfl
  rw [hlayout, hself.layout, hsize]
  exact returns_between hM (by rw [hinput, hx]) (by rw [hinput]; exact hop) hy

/-- What an operation on blocks of two sizes is given; the rank is that `validate` asks for. -/
structure GivesBlockShape (base : OperationsBase) (ng : Ngraph) (M : Meaning R)
    (nodes : NgraphNodes) (count flag : Nat) (nchw : Bool) (bh bw : Nat) (x : Tensor R) :
    Prop where
  rank : (base.getInputOperandDimensions 0).length = 4
  block : base.sModelInfo.vectorValue .int32 (base.inputIndex 1) = [(bh : Int), (bw : Int)]
  layout : base.givenLayout count flag = nchw
  input : base.InputDenotes ng M nodes 0 x

theorem returns_sizes (hM : M.Transposes) {rank : Nat} {vals : List Scalar} (values : List Nat)
    (hrank : rank = values.length) (hvals : vals = values.map fun (a : Nat) => .int a) :
    Returns (answer ng) nodes (createConstNode .i64 [rank] vals) fun r =>
      r.denote M 0 = sizes values := by
  rw [hrank, hvals]
  exact returns_const (hM.sizes .i64 values)

theorem returns_spaceToBatch (hM : M.Transposes) {nchw : Bool} {bh bw : Nat} {y : Tensor R}
    {n' h' w' c' : Nat} (hself : GivesBlockShape self ng M nodes 4 3 nchw bh bw x)
    (hpads : self.sModelInfo.vectorValue .int32 (self.inputIndex 2) = [0, 0, 0, 0])
    (hx : x.shape = arrange nchw n h w c)
    (hop : M .spaceToBatch [toNchw nchw x, sizes [1, 1, bh, bw], sizes [0, 0, 0, 0],
      sizes [0, 0, 0, 0]] 0 = y)
    (hy : y.shape = [n', c', h', w']) :
    Returns (answer ng) nodes (SpaceToBatch.createNode self) fun r =>
      r.denote M 0 = fromNchw nchw y := by
  apply hself.input.bind
  intro input hinput
  apply returns_getConstVecOperand.bind
  intro blockShape hblock
  apply returns_getConstVecOperand.bind
  intro pads hpadding
  rw [hblock, hself.block, hpadding, hpads]
  apply (returns_sizes hM [1, 1, bh, bw] hself.rank rfl).bind
  intro blockNode hblockNode
  apply (returns_sizes hM [0, 0, 0, 0] hself.rank rfl).bind
  intro padBegin hbegin
  apply (returns_sizes hM [0, 0, 0, 0] hself.rank rfl).bind
  intro padEnd hend
  apply returns_useNchw.bind
  intro useNchw hlayout
  rw [hlayout, hself.layout]
  refine returns_between hM (by rw [hinput, hx]) ?_ hy
  rw [hinput, Node.denoteAll, Node.denoteAll, Node.denoteAll, Node.denoteAll,
    Node.denoteOutput, Node.denoteOutput, Node.denoteOutput, hblockNode, hbegin, hend]
  exact hop

theorem returns_batchToSpace (hM : M.Transposes) {nchw : Bool} {bh bw : Nat} {y : Tensor R}
    {n' h' w' c' : Nat} (hself : GivesBlockShape self ng M nodes 3 2 nchw bh bw x)
    (hx : x.shape = arrange nchw n h w c)
    (hop : M .batchToSpace [toNchw nchw x, sizes [1, 1, bh, bw], sizes [0, 0, 0, 0],
      sizes [0, 0, 0, 0]] 0 = y)
    (hy : y.shape = [n', c', h', w']) :
    Returns (answer ng) nodes (BatchToSpace.createNode self) fun r =>
      r.denote M 0 = fromNchw nchw y := by
  apply hself.input.bind
  intro input hinput
  apply returns_getConstVecOperand.bind
  intro blockShape hblock
  apply returns_useNchw.bind
  intro useNchw hlayout
  rw [hblock, hself.block, hlayout, hself.layout]
  have hzeros : List.replicate (self.getInputOperandDimensions 0).length (Scalar.int 0) =
      [0, 0, 0, 0].map fun (a : Nat) => .int a := by
    rw [hself.rank]
    rfl
  apply (returns_sizes hM [1, 1, bh, bw] hself.rank rfl).bind
  intro blockNode hblockNode
  apply (returns_sizes hM [0, 0, 0, 0] hself.rank hzeros).bind
  intro cropBegin hbegin
  apply (returns_sizes hM [0, 0, 0, 0] hself.rank hzeros).bind
  intro cropEnd hend
  refine returns_between hM (by rw [hinput, hx]) ?_ hy
  rw [hinput, Node.denoteAll, Node.denoteAll, Node.denoteAll, Node.denoteAll,
    Node.denoteOutput, Node.denoteOutput, Node.denoteOutput, hblockNode, hbegin, hend]
  exact hop

/-! ## The operations -/

/-- NNAPI's `SPACE_TO_DEPTH`: the cell at `(i, j)` of a block goes to the channels from
`(i * b + j) * c` on. -/
structure IsSpaceToDepth (nchw : Bool) (b n h w c : Nat) (x y : Tensor R) : Prop where
  shape : y.shape = arrange nchw n h w (b * b * c)
  entry : ∀ m row column k i j : Int, (0 ≤ m ∧ m < n) → (0 ≤ row ∧ row < h) →
    (0 ≤ column ∧ column < w) → (0 ≤ k ∧ k < c) → (0 ≤ i ∧ i < b) → (0 ≤ j ∧ j < b) →
    y.get (arrange nchw m row column ((i * b + j) * c + k)) =
      x.get (arrange nchw m (row * b + i) (column * b + j) k)

variable {nchw : Bool} {b bh bw : Nat} {y : Tensor R} {s d : OperationsBase}
variable {nodes' : NgraphNodes} {first second : Node}

theorem isSpaceToDepth_gatherBlocks (hb : 0 < b)
    (hx : x.shape = arrange nchw n (h * b) (w * b) c) :
    IsSpaceToDepth nchw b n h w c x (fromNchw nchw ((toNchw nchw x).gatherBlocks 1 b b)) := by
  have hnchw : (toNchw nchw x).shape = [n, c, h * b, w * b] := shape_toNchw hx
  have hgathered : ((toNchw nchw x).gatherBlocks 1 b b).shape = [n, b * b * c, h, w] :=
    Tensor.shape_gatherBlocks (by decide) hb hb hnchw
  constructor
  · exact shape_fromNchw hgathered
  · intro m row column k i j hm hrow hcolumn hk hi hj
    rw [get_fromNchw hgathered, ← get_toNchw hx]
    exact Tensor.get_gatherBlocks_cell (by decide) hnchw hk hm hrow hcolumn hi hj

/-- What the graph of `SPACE_TO_DEPTH` denotes. -/
theorem spaceToDepth_denotes (hM : M.Transposes) (hblocks : M.MovesBlocks) (hb : 0 < b)
    (hs : GivesBlock s ng M nodes nchw b x) (hx : x.shape = arrange nchw n (h * b) (w * b) c)
    (hfirst : (exec (answer ng) (SpaceToDepth.createNode s) nodes).outcome = .ok first) :
    first.denote M 0 = fromNchw nchw ((toNchw nchw x).gatherBlocks 1 b b) := by
  have hnchw : (toNchw nchw x).shape = [n, c, h * b, w * b] := shape_toNchw hx
  have hgathered : ((toNchw nchw x).gatherBlocks 1 b b).shape = [n, b * b * c, h, w] :=
    Tensor.shape_gatherBlocks (by decide) hb hb hnchw
  have hop := hblocks.spaceToDepth _ b n c h w hb hnchw
  exact (returns_blockNode hM hs hx hop hgathered first hfirst).2

/-- What the graph of `DEPTH_TO_SPACE` denotes. -/
theorem depthToSpace_denotes (hM : M.Transposes) (hblocks : M.MovesBlocks) (hb : 0 < b)
    (hd : GivesBlock d ng M nodes nchw b y) (hy : y.shape = arrange nchw n h w (b * b * c))
    (hfirst : (exec (answer ng) (DepthToSpace.createNode d) nodes).outcome = .ok first) :
    first.denote M 0 = fromNchw nchw ((toNchw nchw y).spreadBlocks 1 b b) := by
  have hnchw : (toNchw nchw y).shape = [n, b * b * c, h, w] := shape_toNchw hy
  have hspread : ((toNchw nchw y).spreadBlocks 1 b b).shape = [n, c, h * b, w * b] :=
    Tensor.shape_spreadBlocks (by decide) hb hb hnchw
  have hop := hblocks.depthToSpace _ b n c h w hb hnchw
  exact (returns_blockNode hM hd hy hop hspread first hfirst).2

/-- `DEPTH_TO_SPACE` undoes `SPACE_TO_DEPTH`. -/
theorem depthToSpace_spaceToDepth (hM : M.Transposes) (hblocks : M.MovesBlocks) (hb : 0 < b)
    (hs : GivesBlock s ng M nodes nchw b x) (hx : x.shape = arrange nchw n (h * b) (w * b) c)
    (hfirst : (exec (answer ng) (SpaceToDepth.createNode s) nodes).outcome = .ok first)
    (hd : GivesBlock d ng M nodes' nchw b (first.denote M 0))
    (hsecond : (exec (answer ng) (DepthToSpace.createNode d) nodes').outcome = .ok second) :
    second.denote M 0 = x := by
  have hnchw : (toNchw nchw x).shape = [n, c, h * b, w * b] := shape_toNchw hx
  have hgathered : ((toNchw nchw x).gatherBlocks 1 b b).shape = [n, b * b * c, h, w] :=
    Tensor.shape_gatherBlocks (by decide) hb hb hnchw
  have hpacked := spaceToDepth_denotes hM hblocks hb hs hx hfirst
  have hshape : (first.denote M 0).shape = arrange nchw n h w (b * b * c) := by
    rw [hpacked, shape_fromNchw hgathered]
  rw [depthToSpace_denotes hM hblocks hb hd hshape hsecond, hpacked, toNchw_fromNchw hgathered,
    Tensor.spreadBlocks_gatherBlocks (by decide) hb hb hnchw, fromNchw_toNchw hx]

/-- `SPACE_TO_DEPTH` undoes `DEPTH_TO_SPACE`. -/
theorem spaceToDepth_depthToSpace (hM : M.Transposes) (hblocks : M.MovesBlocks) (hb : 0 < b)
    (hd : GivesBlock d ng M nodes nchw b y) (hy : y.shape = arrange nchw n h w (b * b * c))
    (hfirst : (exec (answer ng) (DepthToSpace.createNode d) nodes).outcome = .ok first)
    (hs : GivesBlock s ng M nodes' nchw b (first.denote M 0))
    (hsecond : (exec (answer ng) (SpaceToDepth.createNode s) nodes').outcome = .ok second) :
    second.denote M 0 = y := by
  have hnchw : (toNchw nchw y).shape = [n, b * b * c, h, w] := shape_toNchw hy
  have hspread : ((toNchw nchw y).spreadBlocks 1 b b).shape = [n, c, h * b, w * b] :=
    Tensor.shape_spreadBlocks (by decide) hb hb hnchw
  have hunpacked := depthToSpace_denotes hM hblocks hb hd hy hfirst
  have hshape : (first.denote M 0).shape = arrange nchw n (h * b) (w * b) c := by
    rw [hunpacked, shape_fromNchw hspread]
  rw [spaceToDepth_denotes hM hblocks hb hs hshape hsecond, hunpacked, toNchw_fromNchw hspread,
    Tensor.gatherBlocks_spreadBlocks (by decide) hb hb hnchw, fromNchw_toNchw hy]

/-- `BATCH_TO_SPACE_ND` undoes `SPACE_TO_BATCH_ND` without padding. -/
theorem batchToSpace_spaceToBatch (hM : M.Transposes) (hblocks : M.MovesBlocks) (hbh : 0 < bh)
    (hbw : 0 < bw) (hs : GivesBlockShape s ng M nodes 4 3 nchw bh bw x)
    (hpads : s.sModelInfo.vectorValue .int32 (s.inputIndex 2) = [0, 0, 0, 0])
    (hx : x.shape = arrange nchw n (h * bh) (w * bw) c)
    (hfirst : (exec (answer ng) (SpaceToBatch.createNode s) nodes).outcome = .ok first)
    (hd : GivesBlockShape d ng M nodes' 3 2 nchw bh bw (first.denote M 0))
    (hsecond : (exec (answer ng) (BatchToSpace.createNode d) nodes').outcome = .ok second) :
    second.denote M 0 = x := by
  have hnchw : (toNchw nchw x).shape = [n, c, h * bh, w * bw] := shape_toNchw hx
  have hgathered : ((toNchw nchw x).gatherBlocks 0 bh bw).shape = [bh * bw * n, c, h, w] :=
    Tensor.shape_gatherBlocks (by decide) hbh hbw hnchw
  have hpacked : first.denote M 0 = fromNchw nchw ((toNchw nchw x).gatherBlocks 0 bh bw) :=
    (returns_spaceToBatch hM hs hpads hx
      (hblocks.spaceToBatch _ bh bw n c h w hbh hbw hnchw) hgathered first hfirst).2
  have hshape : (first.denote M 0).shape = arrange nchw (bh * bw * n) h w c := by
    rw [hpacked, shape_fromNchw hgathered]
  have hbatched : (toNchw nchw (first.denote M 0)).shape = [bh * bw * n, c, h, w] :=
    shape_toNchw hshape
  have hspread : ((toNchw nchw (first.denote M 0)).spreadBlocks 0 bh bw).shape =
      [n, c, h * bh, w * bw] := Tensor.shape_spreadBlocks (by decide) hbh hbw hbatched
  rw [(returns_batchToSpace hM hd hshape
      (hblocks.batchToSpace _ bh bw n c h w hbh hbw hbatched) hspread second hsecond).2,
    hpacked, toNchw_fromNchw hgathered,
    Tensor.spreadBlocks_gatherBlocks (by decide) hbh hbw hnchw, fromNchw_toNchw hx]

/-- **What the four block operations compute.**  In either layout `SPACE_TO_DEPTH` is NNAPI's
definition and `DEPTH_TO_SPACE` its inverse, and `BATCH_TO_SPACE_ND` undoes
`SPACE_TO_BATCH_ND`. -/
theorem blockGraphs_move (hM : M.Transposes) (hblocks : M.MovesBlocks) (nchw : Bool)
    (n h w c : Nat) :
    (∀ (b : Nat) (s : OperationsBase) (nodes : NgraphNodes) (x : Tensor R) (first : Node),
      0 < b → GivesBlock s ng M nodes nchw b x → x.shape = arrange nchw n (h * b) (w * b) c →
      (exec (answer ng) (SpaceToDepth.createNode s) nodes).outcome = .ok first →
      IsSpaceToDepth nchw b n h w c x (first.denote M 0) ∧
      ∀ (d : OperationsBase) (nodes' : NgraphNodes) (second : Node),
        GivesBlock d ng M nodes' nchw b (first.denote M 0) →
        (exec (answer ng) (DepthToSpace.createNode d) nodes').outcome = .ok second →
        second.denote M 0 = x) ∧
    (∀ (b : Nat) (d : OperationsBase) (nodes : NgraphNodes) (y : Tensor R) (first : Node),
      0 < b → GivesBlock d ng M nodes nchw b y → y.shape = arrange nchw n h w (b * b * c) →
      (exec (answer ng) (DepthToSpace.createNode d) nodes).outcome = .ok first →
      ∀ (s : OperationsBase) (nodes' : NgraphNodes) (second : Node),
        GivesBlock s ng M nodes' nchw b (first.denote M 0) →
        (exec (answer ng) (SpaceToDepth.createNode s) nodes').outcome = .ok second →
        second.denote M 0 = y) ∧
    (∀ (bh bw : Nat) (s : OperationsBase) (nodes : NgraphNodes) (x : Tensor R) (first : Node),
      0 < bh → 0 < bw → GivesBlockShape s ng M nodes 4 3 nchw bh bw x →
      s.sModelInfo.vectorValue .int32 (s.inputIndex 2) = [0, 0, 0, 0] →
      x.shape = arrange nchw n (h * bh) (w * bw) c →
      (exec (answer ng) (SpaceToBatch.createNode s) nodes).outcome = .ok first →
      ∀ (d : OperationsBase) (nodes' : NgraphNodes) (second : Node),
        GivesBlockShape d ng M nodes' 3 2 nchw bh bw (first.denote M 0) →
        (exec (answer ng) (BatchToSpace.createNode d) nodes').outcome = .ok second →
        second.denote M 0 = x) := by
  refine ⟨?_, ?_, ?_⟩
  · intro b s nodes x first hb hs hx hfirst
    refine ⟨?_, fun d nodes' second hd hsecond =>
      depthToSpace_spaceToDepth hM hblocks hb hs hx hfirst hd hsecond⟩
    rw [spaceToDepth_denotes hM hblocks hb hs hx hfirst]
    exact isSpaceToDepth_gatherBlocks hb hx
  · intro b d nodes y first hb hd hy hfirst s nodes' second hs hsecond
    exact spaceToDepth_depthToSpace hM hblocks hb hd hy hfirst hs hsecond
  · intro bh bw s nodes x first hbh hbw hs hpads hx hfirst d nodes' second hd hsecond
    exact batchToSpace_spaceToBatch hM hblocks hbh hbw hs hpads hx hfirst hd hsecond

end Graphs

/-! ### Small images -/

/-- The reference meaning with the four operations on blocks. -/
def blockReference (inputs : Nat → Tensor Int) : Meaning Int
  | .spaceToDepth b, [x], _ => x.gatherBlocks 1 b b
  | .depthToSpace b, [x], _ => x.spreadBlocks 1 b b
  | .spaceToBatch, [x, block, _, _], _ =>
      x.gatherBlocks 0 ((naturals block).getD 2 1) ((naturals block).getD 3 1)
  | .batchToSpace, [x, block, _, _], _ =>
      x.spreadBlocks 0 ((naturals block).getD 2 1) ((naturals block).getD 3 1)
  | op, args, index => reference inputs op args index

theorem blockReference_transposes {inputs : Nat → Tensor Int} :
    (blockReference inputs).Transposes :=
  have hreference : (reference inputs).Transposes := reference_transposes
  ⟨hreference.constant, hreference.transpose⟩

theorem blockReference_movesBlocks {inputs : Nat → Tensor Int} :
    (blockReference inputs).MovesBlocks where
  spaceToDepth _ _ _ _ _ _ _ _ := rfl
  depthToSpace _ _ _ _ _ _ _ _ := rfl
  spaceToBatch _ _ _ _ _ _ _ _ _ _ := by
    rw [blockReference, sizes, naturals_ofList]
    rfl
  batchToSpace _ _ _ _ _ _ _ _ _ _ := by
    rw [blockReference, sizes, naturals_ofList]
    rfl

/-- An operation on an image of these dimensions with blocks of two rows and two columns. -/
def sampleBlock (type : OperationType) (dimensions : List Nat) (nchw : Bool) : OperationsBase :=
  sampleOperation type [dimensions] [(.int32, 2), (.bool, if nchw then 1 else 0)]

/-- One with blocks of two rows and three columns, and with zero paddings where it has them. -/
def sampleBlockShape (type : OperationType) (dimensions : List Nat) (padded nchw : Bool) :
    OperationsBase where
  sModelInfo :=
    { mModel :=
        { operands :=
            [{ type := .tensorFloat32, dimensions, lifetime := .subgraphInput },
              { type := .tensorInt32, dimensions := [2], lifetime := .constantCopy
                location := { offset := 0, length := 8 } },
              { type := .tensorInt32, dimensions := [2, 2], lifetime := .constantCopy
                location := { offset := 8, length := 16 } },
              { type := .bool, lifetime := .constantCopy
                location := { offset := 24, length := 1 } }]
          operations :=
            [{ type, inputs := if padded then [0, 1, 2, 3] else [0, 1, 3], outputs := [] }]
          inputIndexes := [0]
          outputIndexes := []
          operandValues := [2, 0, 0, 0, 3, 0, 0, 0] ++ List.replicate 16 0 ++
            [if nchw then 1 else 0] } }
  sPluginType := .cpu
  mNnapiOperationIndex := 0
  mDefaultOutputIndex := 0

/-- The node that is operand 0. -/
def firstOperand (node : Node) : NgraphNodes where
  mOutputAtOperandIndex index := if index = 0 then some (node, 0) else none

/-- A run that returns, returns its node. -/
theorem outcome_returnedNode {run : Ran NgraphNodes Cmd Stop Node}
    (h : run.outcome.toBool = true) : run.outcome = .ok (returnedNode run) := by
  unfold returnedNode
  cases hout : run.outcome with
  | ok node => rfl
  | error stop =>
      rw [hout] at h
      cases h

/-- Two images of three channels, four rows and six columns, there and back. -/
def SampleMoves (nchw : Bool) : Prop :=
  let image := arrange nchw 2 4 6 3
  let M := blockReference (sampleInputs [image])
  let x := sampleInputs [image] 0
  let packed := returnedNode (exec (answer (.ofMeaning M)) (SpaceToDepth.createNode
    (sampleBlock .spaceToDepth image nchw)) (sampleNodes [image]))
  let unpacked := returnedNode (exec (answer (.ofMeaning M)) (DepthToSpace.createNode
    (sampleBlock .depthToSpace (arrange nchw 2 2 3 12) nchw)) (firstOperand packed))
  let repacked := returnedNode (exec (answer (.ofMeaning M)) (SpaceToDepth.createNode
    (sampleBlock .spaceToDepth image nchw)) (firstOperand unpacked))
  let batched := returnedNode (exec (answer (.ofMeaning M)) (SpaceToBatch.createNode
    (sampleBlockShape .spaceToBatchNd image true nchw)) (sampleNodes [image]))
  let unbatched := returnedNode (exec (answer (.ofMeaning M)) (BatchToSpace.createNode
    (sampleBlockShape .batchToSpaceNd (arrange nchw 12 2 2 3) false nchw)) (firstOperand batched))
  IsSpaceToDepth nchw 2 2 2 3 3 x (packed.denote M 0) ∧ unpacked.denote M 0 = x ∧
    repacked.denote M 0 = packed.denote M 0 ∧ unbatched.denote M 0 = x

theorem blockGraphs_move_sample : SampleMoves false ∧ SampleMoves true := by
  have hruns : ∀ nchw, (exec (answer (.ofMeaning (blockReference
      (sampleInputs [arrange nchw 2 4 6 3])))) (SpaceToBatch.createNode (sampleBlockShape
      .spaceToBatchNd (arrange nchw 2 4 6 3) true nchw))
      (sampleNodes [arrange nchw 2 4 6 3])).outcome.toBool = true := by
    decide +kernel
  have hboth : ∀ nchw, SampleMoves nchw := by
    intro nchw
    unfold SampleMoves
    intro image M x packed unpacked repacked batched unbatched
    have hgives : GivesBlock (sampleBlock .spaceToDepth image nchw) (.ofMeaning M) M
        (sampleNodes [image]) nchw 2 x := by
      cases nchw <;> exact ⟨by decide, by decide, fun _ h => by cases h; exact ⟨rfl, rfl⟩⟩
    have hback : GivesBlock (sampleBlock .depthToSpace (arrange nchw 2 2 3 12) nchw)
        (.ofMeaning M) M (firstOperand packed) nchw 2 (packed.denote M 0) := by
      cases nchw <;> exact ⟨by decide, by decide, fun _ h => by cases h; exact ⟨rfl, rfl⟩⟩
    have hagain : GivesBlock (sampleBlock .spaceToDepth image nchw) (.ofMeaning M) M
        (firstOperand unpacked) nchw 2 (unpacked.denote M 0) := by
      cases nchw <;> exact ⟨by decide, by decide, fun _ h => by cases h; exact ⟨rfl, rfl⟩⟩
    have hshape : GivesBlockShape (sampleBlockShape .spaceToBatchNd image true nchw)
        (.ofMeaning M) M (sampleNodes [image]) 4 3 nchw 2 3 x := by
      cases nchw <;>
        exact ⟨by decide, by decide +kernel, by decide, fun _ h => by cases h; exact ⟨rfl, rfl⟩⟩
    have hreturn : GivesBlockShape (sampleBlockShape .batchToSpaceNd (arrange nchw 12 2 2 3)
        false nchw) (.ofMeaning M) M (firstOperand batched) 3 2 nchw 2 3
        (batched.denote M 0) := by
      cases nchw <;>
        exact ⟨by decide, by decide +kernel, by decide, fun _ h => by cases h; exact ⟨rfl, rfl⟩⟩
    have hdepth := (blockGraphs_move blockReference_transposes blockReference_movesBlocks
      nchw 2 2 3 3).1 2 _ _ x packed (by decide) hgives rfl (by cases nchw <;> rfl)
    have hunpacked := hdepth.2 _ _ unpacked hback (by cases nchw <;> rfl)
    have hspace := (blockGraphs_move blockReference_transposes blockReference_movesBlocks
      nchw 2 2 3 3).2.1 2 _ _ (packed.denote M 0) unpacked (by decide) hback hdepth.1.shape
      (by cases nchw <;> rfl) _ _ repacked hagain (by cases nchw <;> rfl)
    have hbatch := (blockGraphs_move blockReference_transposes blockReference_movesBlocks
      nchw 2 2 2 3).2.2 2 3 _ _ x batched (by decide) (by decide) hshape
      (by cases nchw <;> decide +kernel) rfl (outcome_returnedNode (hruns nchw)) _ _ unbatched
      hreturn (by cases nchw <;> rfl)
    exact ⟨hdepth.1, hunpacked, hspace, hbatch⟩
  exact ⟨hboth false, hboth true⟩

end NnHal
