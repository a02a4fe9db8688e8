import NnHal.ConvolutionMeanings
import NnHal.Layouts

/-!
# The layout law

Class by class, the run on the NHWC operation returns a node that denotes the
NHWC transposition of what the run on the NCHW operation returns.
-/

namespace NnHal

open Command Tensors

section Classes

variable {R : Type} [Ring R] {M : Meaning R} {ng : Ngraph} {nodes nodes' : NgraphNodes}
variable {self self' : OperationsBase} {flag : Nat}

variable (ht : M.Transposes) (hng : ng.Infers M) (hc : ng.ChecksOrders)
variable (hinput : Compare ng nodes nodes' (self.getInputNode 0) (self'.getInputNode 0) (Laid M))

/-! ## Space, depth and batch -/

section Blocks

include ht hng hc hinput

theorem compare_blockNode (h : Relaid self self' nodes nodes' 2 none)
    (hsize : self.inputsSize = 3) {op : Nat → NodeOp} :
    Compare ng nodes nodes' (self.blockNode op) (self'.blockNode op) (Restored M) := by
  unfold OperationsBase.blockNode
  refine Agree.bind (compare_useNchw h hsize (by omega)) ?_
  intro _ _ hboth
  rcases hboth with ⟨rfl, rfl⟩
  apply Agree.bind hinput
  intro input input' hlaid
  apply (same_parse (h.kept (by omega) (by omega))).step
  intro blockSize
  apply Agree.bind (compare_toNchw ht hlaid)
  intro a a' ha
  refine Agree.bind (SameTensor.make (congrArg (fun x => [x]) ha)) fun o o' ho => ?_
  exact compare_fromNchw ht hng hc ho

theorem compare_batchToSpace (h : Relaid self self' nodes nodes' 2 none)
    (hsize : self.inputsSize = 3) :
    Compare ng nodes nodes' (BatchToSpace.createNode self) (BatchToSpace.createNode self')
      (Restored M) := by
  unfold BatchToSpace.createNode
  simp only [h.rank]
  apply Agree.bind hinput
  intro input input' hlaid
  apply (same_getConstVecInput (h.kept (by omega) (by omega))).step
  intro blockShape
  refine Agree.bind (compare_useNchw h hsize (by omega)) ?_
  intro _ _ hboth
  rcases hboth with ⟨rfl, rfl⟩
  apply same_const.step
  intro blockShapeNode
  apply same_const.step
  intro cropBegin
  apply same_const.step
  intro cropEnd
  apply Agree.bind (compare_toNchw ht hlaid)
  intro a a' ha
  refine Agree.bind (SameTensor.make ?_) fun o o' ho => compare_fromNchw ht hng hc ho
  exact congrArg (fun x => [x, blockShapeNode.denote M 0, cropBegin.denote M 0,
    cropEnd.denote M 0]) ha

theorem compare_spaceToBatch (h : Relaid self self' nodes nodes' 3 none)
    (hsize : self.inputsSize = 4) :
    Compare ng nodes nodes' (SpaceToBatch.createNode self) (SpaceToBatch.createNode self')
      (Restored M) := by
  unfold SpaceToBatch.createNode
  simp only [h.rank]
  apply Agree.bind hinput
  intro input input' hlaid
  apply (same_getConstVecInput (h.kept (by omega) (by omega))).step
  intro blockShape
  apply (same_getConstVecInput (h.kept (by omega) (by omega))).step
  intro pads
  apply same_const.step
  intro blockShapeNode
  apply same_const.step
  intro padBegin
  apply same_const.step
  intro padEnd
  refine Agree.bind (compare_useNchw h hsize (by omega)) ?_
  intro _ _ hboth
  rcases hboth with ⟨rfl, rfl⟩
  apply Agree.bind (compare_toNchw ht hlaid)
  intro a a' ha
  refine Agree.bind (SameTensor.make ?_) fun o o' ho => compare_fromNchw ht hng hc ho
  exact congrArg (fun x => [x, blockShapeNode.denote M 0, padBegin.denote M 0,
    padEnd.denote M 0]) ha

end Blocks

/-! ## Pooling -/

/-- The local variables of the two runs differ in the layout alone. -/
def PoolLocals.Relaid (l l' : PoolLocals) : Prop :=
  l.useNchw = false ∧ l' = { l with useNchw := true }

theorem compare_poolImplicitPadding {cls : PoolClass} {scheme strideWidth strideHeight inputWidth
    inputHeight filterWidth filterHeight : Int} :
    Same ng nodes nodes' (OperationsBase.poolImplicitPadding cls scheme strideWidth strideHeight
      inputWidth inputHeight filterWidth filterHeight)
      (OperationsBase.poolImplicitPadding cls scheme strideWidth strideHeight inputWidth
        inputHeight filterWidth filterHeight) := by
  unfold OperationsBase.poolImplicitPadding
  refine same_ite (fun _ => same_calculateExplicitPadding.step fun _ => ?_) fun _ => ?_
  · exact same_calculateExplicitPadding.step fun _ => same_pure _
  · exact same_ite (fun _ => same_pure _) fun _ => same_pure _

theorem compare_poolLocals (h : Relaid self self' nodes nodes' flag none) {cls : PoolClass}
    (hsize : self.inputsSize = 8 ∨ self.inputsSize = 11) (hflag : flag = self.inputsSize - 1) :
    Compare ng nodes nodes' (OperationsBase.poolLocals self cls)
      (OperationsBase.poolLocals self' cls) PoolLocals.Relaid := by
  have hint : ∀ index, 0 < index ∧ index + 1 < self.inputsSize →
      Same ng nodes nodes' (self.parseInt32 index) (self'.parseInt32 index) :=
    fun index hindex => same_parseInt32 (h.kept (by omega) (by omega))
  rcases hsize with hsize | hsize
  · have hexplicit : ∀ base : OperationsBase, base.inputsSize = 8 →
        base.poolExplicit = false ∧ base.poolImplicit = true := by
      intro base hbase
      simp [OperationsBase.poolImplicit, OperationsBase.poolExplicit, hbase]
    have hfirst := hexplicit self hsize
    have hsecond := hexplicit self' (h.inputsSize.trans hsize)
    rw [hsize] at hint hflag
    subst hflag
    unfold OperationsBase.poolLocals
    simp only [hfirst, hsecond, Bool.false_eq_true, if_false, if_true]
    apply (hint 1 (by omega)).step
    intro paddingScheme
    apply (hint 2 (by omega)).step
    intro strideWidth
    apply (hint 3 (by omega)).step
    intro strideHeight
    apply (hint 4 (by omega)).step
    intro filterWidth
    apply (hint 5 (by omega)).step
    intro filterHeight
    apply (hint 6 (by omega)).step
    intro activationFn
    refine Agree.bind (compare_useNchw h hsize (by omega)) ?_
    intro _ _ hboth
    rcases hboth with ⟨rfl, rfl⟩
    apply (same_convInputSizes h).step
    intro sizes
    exact compare_poolImplicitPadding.step fun padding => agree_pure ⟨rfl, rfl⟩
  · have hexplicit : ∀ base : OperationsBase, base.inputsSize = 11 →
        base.poolExplicit = true := by
      intro base hbase
      simp [OperationsBase.poolExplicit, hbase]
    have hfirst := hexplicit self hsize
    have hsecond := hexplicit self' (h.inputsSize.trans hsize)
    rw [hsize] at hint hflag
    subst hflag
    unfold OperationsBase.poolLocals
    simp only [hfirst, hsecond, if_true]
    apply (hint 1 (by omega)).step
    intro paddingLeft
    apply (hint 2 (by omega)).step
    intro paddingRight
    apply (hint 3 (by omega)).step
    intro paddingTop
    apply (hint 4 (by omega)).step
    intro paddingBottom
    apply (hint 5 (by omega)).step
    intro strideWidth
    apply (hint 6 (by omega)).step
    intro strideHeight
    apply (hint 7 (by omega)).step
    intro filterWidth
    apply (hint 8 (by omega)).step
    intro filterHeight
    apply (hint 9 (by omega)).step
    intro activationFn
    refine Agree.bind (compare_useNchw h hsize (by omega)) ?_
    intro _ _ hboth
    rcases hboth with ⟨rfl, rfl⟩
    refine Same.step (same_ite (fun _ => same_convInputSizes h) fun _ => same_pure _) fun _ => ?_
    exact agree_pure ⟨rfl, rfl⟩

/-- The attributes do not depend on the layout. -/
theorem same_poolAttrs {l : PoolLocals} :
    Same ng nodes nodes' (OperationsBase.poolAttrs l) (OperationsBase.poolAttrs l) := by
  refine same_readLocal.step fun _ => same_readLocal.step fun _ => ?_
  refine same_readLocal.step fun _ => same_readLocal.step fun _ => ?_
  refine same_readLocal.step fun _ => same_readLocal.step fun _ => ?_
  refine same_readLocal.step fun _ => same_readLocal.step fun _ => ?_
  exact same_readLocal.step fun _ => same_pure _

section Pools

include ht hng hc hinput

variable (h : Relaid self self' nodes nodes' flag none)
  (hsize : self.inputsSize = 8 ∨ self.inputsSize = 11) (hflag : flag = self.inputsSize - 1)

include h hsize hflag

theorem compare_averagePool2D :
    Compare ng nodes nodes' (AveragePool2D.createNode self) (AveragePool2D.createNode self')
      (Restored M) := by
  unfold AveragePool2D.createNode
  apply Agree.bind hinput
  intro input input' hlaid
  refine Agree.bind (compare_poolLocals h hsize hflag) ?_
  intro l _ hboth
  rcases hboth with ⟨hl, rfl⟩
  rw [hl]
  apply Agree.bind (compare_toNchw ht hlaid)
  intro a a' ha
  apply same_poolAttrs.step
  intro attrs
  refine Agree.bind (SameTensor.make (congrArg (fun x => [x]) ha)) fun o o' ho => ?_
  exact compare_tail ht hng hc ho

theorem compare_maxPool2d :
    Compare ng nodes nodes' (MaxPool2d.createNode self) (MaxPool2d.createNode self')
      (Restored M) := by
  unfold MaxPool2d.createNode
  refine Agree.bind (compare_poolLocals h hsize hflag) ?_
  intro l _ hboth
  rcases hboth with ⟨hl, rfl⟩
  rw [hl]
  apply Agree.bind hinput
  intro input input' hlaid
  apply Agree.bind (compare_toNchw ht hlaid)
  intro a a' ha
  apply same_poolAttrs.step
  intro attrs
  refine Agree.bind (SameTensor.make (congrArg (fun x => [x]) ha)) fun o o' ho => ?_
  exact compare_tail ht hng hc ho

/-- The squares are taken before the first transposition. -/
theorem compare_l2Pooling2D (he : M.Elementwise) :
    Compare ng nodes nodes' (L2Pooling2D.createNode self) (L2Pooling2D.createNode self')
      (Restored M) := by
  unfold L2Pooling2D.createNode
  refine Agree.bind (compare_poolLocals h hsize hflag) ?_
  intro l _ hboth
  rcases hboth with ⟨hl, rfl⟩
  rw [hl]
  apply Agree.bind hinput
  intro input input' hlaid
  have hsquare : ∀ node : Node, (Node.mk .multiply [(node, 0), (node, 0)]).denote M 0 =
      (node.denote M 0).map fun a => a * a :=
    fun node => (he.multiply _ _).trans Tensor.broadcast_same
  refine Agree.bind (compare_make (hlaid.map (hsquare input) (hsquare input')))
    fun square square' hlaid => ?_
  apply Agree.bind (compare_toNchw ht hlaid)
  intro a a' ha
  apply same_poolAttrs.step
  intro attrs
  refine Agree.bind (SameTensor.make (congrArg (fun x => [x]) ha)) fun o o' ho => ?_
  refine Agree.bind (SameTensor.make (congrArg (fun x => [x]) ho)) fun r r' hr => ?_
  exact compare_tail ht hng hc hr

end Pools

/-! ## Resizing -/

/-- The flags of the two runs differ in the layout alone. -/
def ResizeFlags.Relaid (flags flags' : ResizeFlags) : Prop :=
  flags.useNchw = false ∧ flags' = { flags with useNchw := true }

theorem compare_resizeFlags (h : Relaid self self' nodes nodes' 3 none)
    (hsize : 4 ≤ self.inputsSize ∧ self.inputsSize ≤ 6) :
    Compare ng nodes nodes' self.resizeFlags self'.resizeFlags ResizeFlags.Relaid := by
  unfold OperationsBase.resizeFlags
  rw [h.inputsSize]
  have hpresent : self.inputsSize = 6 ∨ self.inputsSize = 5 ∨ self.inputsSize = 4 := by omega
  rw [if_pos hpresent, if_pos hpresent]
  refine Same.step (same_ite (fun hs => ?_) fun _ => same_pure _) fun halfPixel => ?_
  · exact same_parse (h.kept (by omega) (by omega))
  refine Same.step (same_ite (fun hs => ?_) fun _ => same_pure _) fun alignCorners => ?_
  · exact same_parse (h.kept (by omega) (by omega))
  refine Agree.bind (compare_layout h) fun layout layout' hl => agree_pure ⟨?_, ?_⟩
  · simp [hl.1]
  · simp [hl.2]

theorem same_resizeSizes (h : Relaid self self' nodes nodes' 3 none)
    (hsize : 4 ≤ self.inputsSize) (inputWidth inputHeight : Int) :
    Same ng nodes nodes' (self.resizeSizes inputWidth inputHeight)
      (self'.resizeSizes inputWidth inputHeight) := by
  have hwidth : SameInput self self' nodes nodes' 1 := h.kept (by omega) (by omega)
  have hheight : SameInput self self' nodes nodes' 2 := h.kept (by omega) (by omega)
  unfold OperationsBase.resizeSizes
  rw [hwidth.operand.type]
  cases (self.getInputOperand 1).type
  case float32 | float16 | int32 =>
    apply (same_parse hwidth).step
    intro width
    exact (same_parse hheight).step fun height => same_pure _
  all_goals exact same_pure _

theorem same_resizeScaleNode {sizes : ResizeSizes}
    (htype : (self'.getInputOperand 1).type = (self.getInputOperand 1).type) :
    Same ng nodes nodes' (self.resizeScaleNode sizes) (self'.resizeScaleNode sizes) := by
  unfold OperationsBase.resizeScaleNode
  rw [htype]
  have hnull : ∀ {nodes : NgraphNodes}, Returns (answer ng) nodes (deref none) (· = default) :=
    Returns.bind (Q := fun _ => True) (returns_fault trivial) fun _ _ => returns_pure rfl
  cases (self.getInputOperand 1).type
  case float16 | float32 | int32 => exact same_const
  all_goals exact same_of_returns hnull hnull

section Resizing

include ht hng hc hinput

variable (h : Relaid self self' nodes nodes' 3 none)
  (hsize : 4 ≤ self.inputsSize ∧ self.inputsSize ≤ 6)

include h hsize

theorem compare_resizeNode {sizes sizes' : Int → Int → Gen ResizeSizes}
    {attrs attrs' : ResizeFlags → InterpolateAttrs}
    (hsizes : ∀ width height, Same ng nodes nodes' (sizes width height) (sizes' width height))
    (hattrs : ∀ flags flags', flags.Relaid flags' → attrs' flags' = attrs flags) :
    Compare ng nodes nodes' (self.resizeNode sizes attrs) (self'.resizeNode sizes' attrs')
      (Restored M) := by
  have htype := h.types 1 (by omega)
  rcases h.dimensions with ⟨b, height, width, c, hdims, hdims'⟩
  unfold OperationsBase.resizeNode
  rw [hdims, hdims']
  apply Agree.bind hinput
  intro input input' hlaid
  apply Agree.bind (compare_resizeFlags h hsize)
  intro flags flags' hflags
  rw [hattrs flags flags' hflags]
  rcases hflags with ⟨hnhwc, rfl⟩
  simp only [hnhwc]
  apply (same_pure width).step
  intro inputWidth
  apply (same_pure height).step
  intro inputHeight
  apply Agree.bind (compare_toNchw ht hlaid)
  intro a a' ha
  apply (hsizes _ _).step
  intro sizes
  apply same_const.step
  intro outputShapeNode
  apply (same_resizeScaleNode htype).step
  intro scaleNode
  apply same_const.step
  intro axesNode
  refine Agree.bind (SameTensor.make ?_) fun o o' ho => compare_fromNchw ht hng hc ho
  exact congrArg (fun x => [x, outputShapeNode.denote M 0, scaleNode.denote M 0,
    axesNode.denote M 0]) ha

theorem compare_resizeBilinear :
    Compare ng nodes nodes' (ResizeBilinear.createNode self) (ResizeBilinear.createNode self')
      (Restored M) := by
  have htype := h.types 1 (by omega)
  refine compare_resizeNode ht hng hc hinput h hsize (same_resizeSizes h hsize.1) ?_
  intro flags _ hboth
  rcases hboth with ⟨_, rfl⟩
  simp only [htype]
  rfl

theorem compare_resizeNearestNeighbor :
    Compare ng nodes nodes' (ResizeNearestNeighbor.createNode self)
      (ResizeNearestNeighbor.createNode self') (Restored M) := by
  refine compare_resizeNode ht hng hc hinput h hsize ?_ ?_
  · intro width height
    exact (same_resizeSizes h hsize.1 width height).step fun sizes => same_pure _
  · intro flags _ hboth
    rcases hboth with ⟨_, rfl⟩
    rfl

end Resizing

/-! ## Convolutions -/

/-- The local variables of the two runs differ in the layout alone. -/
def ConvLocals.Relaid (l l' : ConvLocals) : Prop :=
  l.useNchw = false ∧ l' = { l with useNchw := true }

theorem same_parseInt32If {b : Prop} [Decidable b] {index : Nat} {otherwise : Int}
    (h : b → SameInput self self' nodes nodes' index) :
    Same ng nodes nodes' (self.parseInt32If b index otherwise)
      (self'.parseInt32If b index otherwise) := by
  unfold OperationsBase.parseInt32If
  by_cases hb : b
  · simpa [hb] using same_parseInt32 (h hb)
  · simpa [hb] using same_pure otherwise

/-- The optional inputs after the activation, with the layout flag the first
of them. -/
theorem compare_convTrailing {index : Nat} (h : Relaid self self' nodes nodes' (index + 1) none)
    (hsize : index + 2 ≤ self.inputsSize ∧ self.inputsSize ≤ index + 4) :
    Compare ng nodes nodes' (self.convTrailing index) (self'.convTrailing index)
      fun t t' => t.2.2 = false ∧ t' = (t.1, t.2.1, true) := by
  have hpresent : self.inputsSize = index + 2 ∨ self.inputsSize = index + 3 ∨
      self.inputsSize = index + 4 := by omega
  unfold OperationsBase.convTrailing
  simp only [h.inputsSize, if_pos hpresent]
  apply (same_parseInt32If fun hs => h.kept (by omega) (by omega)).step
  intro height
  apply (same_parseInt32If fun hs => h.kept (by omega) (by omega)).step
  intro width
  refine Agree.bind (compare_layout h) fun layout layout' hl => agree_pure ⟨?_, ?_⟩
  · simp [hl.1]
  · simp [hl.2]

theorem same_convGroups {cls : ConvClass} {index : Nat}
    (h : cls.hasGroups = true → SameInput self self' nodes nodes' index) :
    Same ng nodes nodes' (OperationsBase.convGroups self cls index)
      (OperationsBase.convGroups self' cls index) := by
  unfold OperationsBase.convGroups
  refine same_ite (fun hg => ?_) fun _ => same_pure _
  exact (same_parseInt32 (h hg)).step fun v => same_pure _

theorem same_convImplicitPadding {cls : ConvClass} {scheme strideWidth strideHeight inputWidth
    inputHeight filterWidth filterHeight : Int} :
    Same ng nodes nodes' (OperationsBase.convImplicitPadding cls scheme strideWidth strideHeight
      inputWidth inputHeight filterWidth filterHeight)
      (OperationsBase.convImplicitPadding cls scheme strideWidth strideHeight inputWidth
        inputHeight filterWidth filterHeight) := by
  unfold OperationsBase.convImplicitPadding
  refine same_ite (fun _ => same_calculateExplicitPadding.step fun _ => ?_) fun _ => ?_
  · exact same_calculateExplicitPadding.step fun _ => same_pure _
  · exact same_ite (fun _ => same_pure _) fun _ => same_pure _

section Locals

variable {cls : ConvClass} {extra optional : Nat}

theorem compare_convExplicitLocals (hcls : cls.Follows extra optional)
    (h : Relaid self self' nodes nodes' (10 + extra) none)
    (hsize : 10 + extra < self.inputsSize ∧ self.inputsSize ≤ 10 + extra + optional) :
    Compare ng nodes nodes' (OperationsBase.convExplicitLocals self cls)
      (OperationsBase.convExplicitLocals self' cls) ConvLocals.Relaid := by
  have hactivation := hcls.activation 9
  have hint : ∀ index, 0 < index ∧ index < 10 + extra →
      Same ng nodes nodes' (self.parseInt32 index) (self'.parseInt32 index) :=
    fun index hindex => same_parseInt32 (h.kept (by omega) (by omega))
  have hoptional := hcls.optional
  have hflag : 10 + extra = 9 + extra + 1 := by omega
  rw [hflag] at h
  unfold OperationsBase.convExplicitLocals
  apply (hint 3 (by omega)).step
  intro paddingLeft
  apply (hint 4 (by omega)).step
  intro paddingRight
  apply (hint 5 (by omega)).step
  intro paddingTop
  apply (hint 6 (by omega)).step
  intro paddingBottom
  apply (hint 7 (by omega)).step
  intro strideWidth
  apply (hint 8 (by omega)).step
  intro strideHeight
  refine (same_convGroups fun hg => h.kept (by omega) ?_).step fun numberGroups => ?_
  · have : extra = 1 := by simpa [hg] using hcls.extra
    omega
  simp only [hactivation]
  apply (hint (9 + extra) (by omega)).step
  intro activationFn
  refine Agree.bind (compare_convTrailing h (by omega)) ?_
  intro hboth _ hboth'
  rcases hboth with ⟨height, width, useNchw⟩
  rcases hboth' with ⟨hnhwc, rfl⟩
  simp only at hnhwc
  subst hnhwc
  exact (same_convInputSizes h).step fun sizes => agree_pure ⟨rfl, rfl⟩

theorem compare_convImplicitLocals (hcls : cls.Follows extra optional)
    (h : Relaid self self' nodes nodes' (7 + extra) none)
    (hsize : 7 + extra < self.inputsSize ∧ self.inputsSize ≤ 7 + extra + optional)
    {filterWidth filterHeight : Int} :
    Compare ng nodes nodes'
      (OperationsBase.convImplicitLocals self cls filterWidth filterHeight)
      (OperationsBase.convImplicitLocals self' cls filterWidth filterHeight)
      ConvLocals.Relaid := by
  have hactivation := hcls.activation 6
  have hint : ∀ index, 0 < index ∧ index < 7 + extra →
      Same ng nodes nodes' (self.parseInt32 index) (self'.parseInt32 index) :=
    fun index hindex => same_parseInt32 (h.kept (by omega) (by omega))
  have hoptional := hcls.optional
  have hflag : 7 + extra = 6 + extra + 1 := by omega
  rw [hflag] at h
  unfold OperationsBase.convImplicitLocals
  apply (hint 3 (by omega)).step
  intro paddingScheme
  apply (hint 4 (by omega)).step
  intro strideWidth
  apply (hint 5 (by omega)).step
  intro strideHeight
  refine (same_convGroups fun hg => h.kept (by omega) ?_).step fun numberGroups => ?_
  · have : extra = 1 := by simpa [hg] using hcls.extra
    omega
  simp only [hactivation]
  apply (hint (6 + extra) (by omega)).step
  intro activationFn
  refine Agree.bind (compare_convTrailing h (by omega)) ?_
  intro hboth _ hboth'
  rcases hboth with ⟨height, width, useNchw⟩
  rcases hboth' with ⟨hnhwc, rfl⟩
  simp only at hnhwc
  subst hnhwc
  apply (same_convInputSizes h).step
  intro sizes
  exact same_convImplicitPadding.step fun padding => agree_pure ⟨rfl, rfl⟩

theorem eq_of_firstOptional {required : Nat} (h : self.firstOptional required = some flag) :
    flag = required ∧ required < self.inputsSize := by
  unfold OperationsBase.firstOptional at h
  by_cases hrequired : required < self.inputsSize
  · rw [if_pos hrequired, Option.some.injEq] at h
    exact ⟨h.symm, hrequired⟩
  · rw [if_neg hrequired] at h
    cases h

/-- The flag comes after the activation, among the inputs. -/
theorem lt_of_convFlag (hcls : cls.Follows extra optional)
    (hflag : OperationsBase.convFlag self cls = some flag) : 7 ≤ flag ∧ flag < self.inputsSize := by
  unfold OperationsBase.convFlag at hflag
  rw [hcls.explicitMin, hcls.implicitMin] at hflag
  by_cases hexplicit : OperationsBase.convExplicit self cls
  · rw [if_pos hexplicit] at hflag
    obtain ⟨rfl, hlt⟩ := eq_of_firstOptional hflag
    omega
  · rw [if_neg hexplicit] at hflag
    by_cases himplicit : OperationsBase.convImplicit self cls
    · rw [if_pos himplicit] at hflag
      obtain ⟨rfl, hlt⟩ := eq_of_firstOptional hflag
      omega
    · rw [if_neg himplicit] at hflag
      cases hflag

/-- The number and the types of the inputs choose the signature. -/
theorem Relaid.convExplicit_eq {shape : Option Nat} (hcls : cls.Follows extra optional)
    (h : Relaid self self' nodes nodes' flag shape) :
    OperationsBase.convExplicit self' cls = OperationsBase.convExplicit self cls := by
  unfold OperationsBase.convExplicit OperationsBase.checkInputOperandType
  rw [h.inputsSize, hcls.explicitMin, hcls.layoutInput]
  by_cases hmin : 10 + extra ≤ self.inputsSize
  · rw [h.types (7 + extra) (by omega)]
  · simp [hmin]

/-- The flag tells the signature, and with it the positions of the
parameters. -/
theorem compare_convLocals (hcls : cls.Follows extra optional)
    (h : Relaid self self' nodes nodes' flag none)
    (hflag : OperationsBase.convFlag self cls = some flag) :
    Compare ng nodes nodes' (OperationsBase.convLocals self cls)
      (OperationsBase.convLocals self' cls) ConvLocals.Relaid := by
  have hexplicit_eq := h.convExplicit_eq hcls
  have himplicit_eq : OperationsBase.convImplicit self' cls =
      OperationsBase.convImplicit self cls := by
    unfold OperationsBase.convImplicit
    rw [hexplicit_eq, h.inputsSize]
  unfold OperationsBase.convFlag at hflag
  by_cases hexplicit : OperationsBase.convExplicit self cls
  · rw [if_pos hexplicit, hcls.explicitMin] at hflag
    obtain ⟨rfl, hmin⟩ := eq_of_firstOptional hflag
    have hmax : self.inputsSize ≤ 10 + extra + optional := by
      simp only [OperationsBase.convExplicit, decide_eq_true_eq, hcls.explicitMax] at hexplicit
      exact hexplicit.2.1
    have hdims := (h.kept (by omega) (by omega) : SameInput self self' nodes nodes' 1).dimensions
    unfold OperationsBase.convLocals
    rw [hexplicit_eq, hexplicit, hdims]
    apply same_dimAt.step
    intro filterWidth
    apply same_dimAt.step
    intro filterHeight
    exact compare_convExplicitLocals hcls h ⟨hmin, hmax⟩
  · rw [if_neg hexplicit] at hflag
    by_cases himplicit : OperationsBase.convImplicit self cls
    · rw [if_pos himplicit, hcls.implicitMin] at hflag
      obtain ⟨rfl, hmin⟩ := eq_of_firstOptional hflag
      have hmax : self.inputsSize ≤ 7 + extra + optional := by
        simp only [OperationsBase.convImplicit, decide_eq_true_eq, hcls.implicitMax] at himplicit
        exact himplicit.2.2
      have hdims := (h.kept (by omega) (by omega) : SameInput self self' nodes nodes' 1).dimensions
      unfold OperationsBase.convLocals
      rw [hexplicit_eq, himplicit_eq, himplicit, hdims]
      simp only [hexplicit, Bool.false_eq_true, if_false, if_true]
      apply same_dimAt.step
      intro filterWidth
      apply same_dimAt.step
      intro filterHeight
      exact compare_convImplicitLocals hcls h ⟨hmin, hmax⟩
    · rw [if_neg himplicit] at hflag
      cases hflag

end Locals

/-- The attributes do not depend on the layout. -/
theorem same_convAttrs {cls : ConvClass} {l : ConvLocals} :
    Same ng nodes nodes' (OperationsBase.convAttrs cls l) (OperationsBase.convAttrs cls l) := by
  refine same_readLocal.step fun _ => same_readLocal.step fun _ => ?_
  refine same_readLocal.step fun _ => same_readLocal.step fun _ => ?_
  refine same_readLocal.step fun _ => same_readLocal.step fun _ => ?_
  exact same_readLocal.step fun _ => same_pure _

theorem same_groupedFilter {cls : ConvClass} {filterNode : Node} {divisor : Int} :
    Same ng nodes nodes' (OperationsBase.groupedFilter cls filterNode divisor)
      (OperationsBase.groupedFilter cls filterNode divisor) := by
  unfold OperationsBase.groupedFilter OperationsBase.divSizeT
  refine same_shapeAt.step fun _ => same_shapeAt.step fun _ => same_shapeAt.step fun _ => ?_
  refine same_shapeAt.step fun _ => Same.step (same_divInt.step fun _ => same_pure _) fun _ => ?_
  exact same_make.step fun _ => same_make

/-- The convolution itself, on the two inputs brought to NCHW. -/
theorem compare_convCore {cls : ConvClass} {l : ConvLocals} {input input' filterNode : Node}
    {attrs : ConvAttrs} (h : SameTensor M input input') :
    Compare ng nodes nodes' (OperationsBase.convCore cls l input filterNode attrs)
      (OperationsBase.convCore cls l input' filterNode attrs) (SameTensor M) := by
  have hargs : ∀ filter : Node, Node.denoteAll M [(input, 0), (filter, 0)] =
      Node.denoteAll M [(input', 0), (filter, 0)] :=
    fun filter => congrArg (fun x => [x, filter.denote M 0]) h
  unfold OperationsBase.convCore
  refine agree_ite Iff.rfl (fun _ => ?_) fun _ => SameTensor.make (hargs filterNode)
  apply same_readLocal.step
  intro divisor
  apply same_groupedFilter.step
  intro filter
  exact SameTensor.make (hargs filter)

section Convolving

include ht hng hc hinput

theorem compare_convNode {cls : ConvClass} {extra optional : Nat}
    (hcls : cls.Follows extra optional) (h : Relaid self self' nodes nodes' flag none)
    (hflag : OperationsBase.convFlag self cls = some flag) :
    Compare ng nodes nodes' (OperationsBase.convNode self cls)
      (OperationsBase.convNode self' cls) (Restored M) := by
  have hlt := lt_of_convFlag hcls hflag
  have hfilter : SameInput self self' nodes nodes' 1 := h.kept (by omega) (by omega)
  have hbias : SameInput self self' nodes nodes' 2 := h.kept (by omega) (by omega)
  rw [convNode_eq, convNode_eq]
  refine Agree.bind (compare_convLocals hcls h hflag) ?_
  intro l _ hboth
  rcases hboth with ⟨hl, rfl⟩
  apply Agree.bind hinput
  intro input input' hlaid
  apply (same_getInputNode hfilter h.rank).step
  intro filterNode
  refine Same.step (Same.step (same_getInputNode hbias h.rank) fun biasNode =>
    same_convBias h hfilter hbias) fun biasNode => ?_
  unfold OperationsBase.convGraph
  rw [hl]
  apply same_transpose.step
  intro filterNode
  apply Agree.bind (compare_toNchw ht hlaid)
  intro a a' ha
  apply same_convAttrs.step
  intro attrs
  apply Agree.bind (compare_convCore ha)
  intro o o' ho
  apply same_readLocal.step
  intro activationFn
  exact Agree.bind (compare_addBias hng hbias ho) fun r r' => compare_fromNchw ht hng hc

end Convolving

/-! ## Transposed convolution -/

/-- The local variables differ in the layout alone, and the output shape is the
same node. -/
def TransposeConv2D.Relaid (r r' : ConvLocals × Option Node) : Prop :=
  r.1.useNchw = false ∧ r' = ({ r.1 with useNchw := true }, r.2)

theorem compare_transposeExplicitLocals (h : Relaid self self' nodes nodes' 10 none)
    (hsize : self.inputsSize = 11) :
    Compare ng nodes nodes' (TransposeConv2D.explicitLocals self)
      (TransposeConv2D.explicitLocals self') TransposeConv2D.Relaid := by
  have hint : ∀ index, 0 < index ∧ index < 10 →
      Same ng nodes nodes' (self.parseInt32 index) (self'.parseInt32 index) :=
    fun index hindex => same_parseInt32 (h.kept (by omega) (by omega))
  unfold TransposeConv2D.explicitLocals
  apply (hint 3 (by omega)).step
  intro paddingLeft
  apply (hint 4 (by omega)).step
  intro paddingRight
  apply (hint 5 (by omega)).step
  intro paddingTop
  apply (hint 6 (by omega)).step
  intro paddingBottom
  apply (hint 7 (by omega)).step
  intro strideWidth
  apply (hint 8 (by omega)).step
  intro strideHeight
  apply (hint 9 (by omega)).step
  intro activationFn
  apply Agree.bind (compare_layout h)
  intro layout layout' hl
  simp only [hl.1, hl.2, ne_eq, not_true_eq_false, not_false_eq_true, decide_false, decide_true]
  exact (same_convInputSizes h).step fun sizes => agree_pure ⟨rfl, rfl⟩

/-- The two output shapes have the same spatial sizes at the positions of
their layouts. -/
theorem compare_transposeImplicitLocals (h : Relaid self self' nodes nodes' 8 (some 3))
    (hsize : self.inputsSize = 9) :
    Compare ng nodes nodes' (TransposeConv2D.implicitLocals self)
      (TransposeConv2D.implicitLocals self') TransposeConv2D.Relaid := by
  have hint : ∀ index, 3 < index ∧ index < 8 →
      Same ng nodes nodes' (self.parseInt32 index) (self'.parseInt32 index) := by
    intro index hindex
    have hshape : index ∉ some 3 := by
      rw [Option.mem_some_iff]
      omega
    exact same_parseInt32 (h.others index (by omega) (by omega) (by omega) hshape)
  obtain ⟨b, height, width, c, hvec, hvec'⟩ := h.outputShape 3 rfl
  have hshape : Compare ng nodes nodes' (self.getConstVecInput .int32 3)
      (self'.getConstVecInput .int32 3) fun v v' =>
        v = arrange false b height width c ∧ v' = arrange true b height width c :=
    (Returns.agree returns_getConstVecOperand returns_getConstVecOperand).mono
      fun v v' hv => ⟨hv.1.trans hvec, hv.2.trans hvec'⟩
  unfold TransposeConv2D.implicitLocals
  refine Agree.bind hshape ?_
  intro _ _ hboth
  rcases hboth with ⟨rfl, rfl⟩
  apply (hint 4 (by omega)).step
  intro paddingScheme
  apply (hint 5 (by omega)).step
  intro strideWidth
  apply (hint 6 (by omega)).step
  intro strideHeight
  apply (hint 7 (by omega)).step
  intro activationFn
  apply Agree.bind (compare_layout h)
  intro layout layout' hl
  simp only [hl.1, hl.2, ne_eq, not_true_eq_false, not_false_eq_true, decide_false, decide_true]
  apply (same_pure height).step
  intro height
  apply (same_pure width).step
  intro width
  exact same_const.step fun outputShapeNode => agree_pure ⟨rfl, rfl⟩

theorem eq_of_lastInput {counts : List Nat} (h : self.lastInput counts = some flag) :
    self.inputsSize ∈ counts ∧ flag = self.inputsSize - 1 := by
  unfold OperationsBase.lastInput at h
  by_cases hmem : self.inputsSize ∈ counts
  · rw [if_pos hmem, Option.some.injEq] at h
    exact ⟨hmem, h.symm⟩
  · rw [if_neg hmem] at h
    cases h

section TransposeConvolving

variable (h : Relaid self self' nodes nodes' flag
    ((LayoutOperation.transposeConv2d).outputShape self))
  (hflag : self.lastInput [9, 11] = some flag)

include h hflag

/-- The filter and the bias are before any output shape and any flag. -/
theorem same_transposeTensors {index : Nat} (hindex : index = 1 ∨ index = 2) :
    SameInput self self' nodes nodes' index := by
  obtain ⟨hmem, hlast⟩ := eq_of_lastInput hflag
  simp only [List.mem_cons, List.not_mem_nil, or_false] at hmem
  refine h.others index (by omega) (by omega) (by omega) ?_
  unfold LayoutOperation.outputShape
  split
  · rw [Option.mem_some_iff]
    omega
  · simp

theorem compare_transposeLocals :
    Compare ng nodes nodes' (TransposeConv2D.locals self) (TransposeConv2D.locals self')
      TransposeConv2D.Relaid := by
  have hfilter := same_transposeTensors h hflag (Or.inl rfl)
  obtain ⟨hmem, hlast⟩ := eq_of_lastInput hflag
  simp only [List.mem_cons, List.not_mem_nil, or_false] at hmem
  unfold TransposeConv2D.locals
  rw [hfilter.dimensions, h.inputsSize]
  refine same_dimAt.step fun _ => same_dimAt.step fun _ => ?_
  rcases hmem with hsize | hsize
  · have hshape : (LayoutOperation.transposeConv2d).outputShape self = some 3 := by
      rw [LayoutOperation.outputShape, hsize]
      rfl
    rw [hshape] at h
    rw [hsize] at hlast ⊢
    subst hlast
    exact compare_transposeImplicitLocals h hsize
  · have hshape : (LayoutOperation.transposeConv2d).outputShape self = none := by
      rw [LayoutOperation.outputShape, hsize]
      rfl
    rw [hshape] at h
    rw [hsize] at hlast ⊢
    subst hlast
    exact compare_transposeExplicitLocals h hsize

include ht hng hc hinput

theorem compare_transposeConv2D :
    Compare ng nodes nodes' (TransposeConv2D.createNode self) (TransposeConv2D.createNode self')
      (Restored M) := by
  have hfilter := same_transposeTensors h hflag (Or.inl rfl)
  have hbias := same_transposeTensors h hflag (Or.inr rfl)
  unfold TransposeConv2D.createNode
  refine Agree.bind (compare_transposeLocals h hflag) ?_
  intro hboth _ hboth'
  rcases hboth with ⟨l, outputShapeNode⟩
  rcases hboth' with ⟨hl, rfl⟩
  simp only at hl
  apply Agree.bind hinput
  intro input input' hlaid
  apply (same_getInputNode hfilter h.rank).step
  intro filterNode
  apply (same_getInputNode hbias h.rank).step
  intro biasNode
  apply (same_convBias h hfilter hbias).step
  intro biasNode
  apply same_transpose.step
  intro filterNode
  rw [hl]
  apply Agree.bind (compare_toNchw ht hlaid)
  intro a a' ha
  refine Agree.bind (Q := SameTensor M) ?_ fun o o' ho => ?_
  · cases outputShapeNode with
    | none =>
        refine same_convAttrs.step fun attrs => SameTensor.make ?_
        exact congrArg (fun x => [x, filterNode.denote M 0]) ha
    | some outputShapeNode =>
        refine same_convAttrs.step fun attrs => SameTensor.make ?_
        exact congrArg (fun x => [x, filterNode.denote M 0, outputShapeNode.denote M 0]) ha
  · apply same_readLocal.step
    intro activationFn
    exact Agree.bind (compare_addBias hng hbias ho) fun r r' => compare_fromNchw ht hng hc

end TransposeConvolving

end Classes

/-! ## The law -/

section Law

variable {R : Type} [Ring R] {M : Meaning R} {ng : Ngraph} {nodes nodes' : NgraphNodes}
variable {self self' : OperationsBase} {flag : Nat}

/-- **The layout law.**  The graph of the NHWC operation computes, from a tensor,
the NHWC transposition of what the graph of the NCHW operation computes from
the NCHW transposition of that tensor. -/
theorem createNode_layout (ht : M.Transposes) (he : M.Elementwise) (hng : ng.Infers M)
    (hc : ng.ChecksOrders) {op : LayoutOperation} (hflag : op.flag self = some flag)
    (h : Relaid self self' nodes nodes' flag (op.outputShape self)) {type : ElementType}
    {x : Tensor R} (hrank : x.shape.length = 4) (hx : self.Fetches ng M nodes 0 type x)
    (hx' : self'.Fetches ng M nodes' 0 type (x.transpose [0, 3, 1, 2])) {node node' : Node}
    (hnode : (exec (answer ng) (op.createNode self) nodes).outcome = .ok node)
    (hnode' : (exec (answer ng) (op.createNode self') nodes').outcome = .ok node') :
    node.denote M 0 = (node'.denote M 0).transpose [0, 2, 3, 1] := by
  have hinput := laid_getInputNode he h hrank hx hx'
  suffices hcompare : Compare ng nodes nodes' (op.createNode self) (op.createNode self')
      (Restored M) from (hcompare node node' hnode hnode').2.2
  have hnone : op ≠ .transposeConv2d → op.outputShape self = none := by
    intro hop
    rw [LayoutOperation.outputShape, if_neg (fun hand => hop hand.1)]
  have hrelaid : op ≠ .transposeConv2d → Relaid self self' nodes nodes' flag none := by
    intro hop
    rw [← hnone hop]
    exact h
  have hpool : self.lastInput [8, 11] = some flag →
      (self.inputsSize = 8 ∨ self.inputsSize = 11) ∧ flag = self.inputsSize - 1 := by
    intro hlast
    simpa using eq_of_lastInput hlast
  have hblock : self.lastInput [3] = some flag → self.inputsSize = 3 ∧ flag = 2 := by
    intro hlast
    obtain ⟨hmem, hflag⟩ := eq_of_lastInput hlast
    have hsize : self.inputsSize = 3 := by simpa using hmem
    omega
  have hresize : (if self.inputsSize ≤ 6 then self.firstOptional 3 else none) = some flag →
      flag = 3 ∧ 4 ≤ self.inputsSize ∧ self.inputsSize ≤ 6 := by
    intro hfirst
    by_cases hmax : self.inputsSize ≤ 6
    · rw [if_pos hmax] at hfirst
      obtain ⟨hthree, hlt⟩ := eq_of_firstOptional hfirst
      omega
    · rw [if_neg hmax] at hfirst
      cases hfirst
  cases op with
  | conv2d => exact compare_convNode ht hng hc hinput Conv2d.cls_follows (hrelaid nofun) hflag
  | depthwiseConv2d =>
      exact compare_convNode ht hng hc hinput DepthwiseConv2d.cls_follows (hrelaid nofun) hflag
  | groupedConv2d =>
      exact compare_convNode ht hng hc hinput GroupedConv2d.cls_follows (hrelaid nofun) hflag
  | transposeConv2d => exact compare_transposeConv2D ht hng hc hinput h hflag
  | averagePool2d =>
      obtain ⟨hsize, hlast⟩ := hpool hflag
      exact compare_averagePool2D ht hng hc hinput (hrelaid nofun) hsize hlast
  | maxPool2d =>
      obtain ⟨hsize, hlast⟩ := hpool hflag
      exact compare_maxPool2d ht hng hc hinput (hrelaid nofun) hsize hlast
  | l2Pool2d =>
      obtain ⟨hsize, hlast⟩ := hpool hflag
      exact compare_l2Pooling2D ht hng hc hinput (hrelaid nofun) hsize hlast he
  | resizeBilinear =>
      obtain ⟨rfl, hsize⟩ := hresize hflag
      exact compare_resizeBilinear ht hng hc hinput (hrelaid nofun) hsize
  | resizeNearestNeighbor =>
      obtain ⟨rfl, hsize⟩ := hresize hflag
      exact compare_resizeNearestNeighbor ht hng hc hinput (hrelaid nofun) hsize
  | depthToSpace =>
      obtain ⟨hsize, rfl⟩ := hblock hflag
      exact compare_blockNode ht hng hc hinput (hrelaid nofun) hsize
  | spaceToDepth =>
      obtain ⟨hsize, rfl⟩ := hblock hflag
      exact compare_blockNode ht hng hc hinput (hrelaid nofun) hsize
  | batchToSpaceNd =>
      obtain ⟨hsize, rfl⟩ := hblock hflag
      exact compare_batchToSpace ht hng hc hinput (hrelaid nofun) hsize
  | spaceToBatchNd =>
      obtain ⟨hmem, hlast⟩ := eq_of_lastInput hflag
      have hsize : self.inputsSize = 4 := by simpa using hmem
      have hthree : flag = 3 := by omega
      subst hthree
      exact compare_spaceToBatch ht hng hc hinput (hrelaid nofun) hsize

end Law

/-! ### A convolution in both layouts -/

/-- ngraph with the shapes of a meaning, checking the orders of transpositions. -/
def Ngraph.checking {R : Type} [Zero R] (M : Meaning R) : Ngraph :=
  { Ngraph.permissive with
    getShape := fun node => (node.denote M 0).shape
    accepts := fun op args =>
      match op, args with
      | .transpose, [(node, _), (.mk (.constant _ _ vals) _, _)] =>
          decide (IsOrder (vals.map fun v => v.integer.toNat) (node.denote M 0).shape.length)
      | _, _ => true }

theorem Ngraph.checking_checksOrders {R : Type} [Zero R] (M : Meaning R) :
    (Ngraph.checking M).ChecksOrders := by
  intro node order haccepts
  have hvalues : ((order.map fun (a : Nat) => Scalar.int a).map fun v => v.integer.toNat) =
      order := by
    rw [List.map_map]
    conv_rhs => rw [← List.map_id order]
    exact List.map_congr_left fun a _ => Int.toNat_natCast a
  have horder := of_decide_eq_true haccepts
  rwa [hvalues] at horder

def sampleSizes (nchw : Bool) : List (List Nat) := [arrange nchw 1 3 2 1, [2, 2, 1, 1], [2]]

/-- A convolution without padding, strides one and two, and a layout flag. -/
def sampleLayout (nchw : Bool) : OperationsBase :=
  sampleOperation .conv2d (sampleSizes nchw) [(.int32, 2), (.int32, 1), (.int32, 2), (.int32, 0),
    (.bool, if nchw then 1 else 0)]

/-- The input is a parameter, and the second operation is given it transposed. -/
def sampleTable (nchw : Bool) : NgraphNodes where
  mOutputAtOperandIndex index :=
    let output := (sampleNodes (sampleSizes false)).getOperationOutput index
    if nchw ∧ index = 0 then
      output.map fun input => (.mk .transpose [input,
        (.mk (.constant .i64 [4] [.int 0, .int 3, .int 1, .int 2]) [], 0)], 0)
    else output

theorem sampleLayout_relaid :
    Relaid (sampleLayout false) (sampleLayout true) (sampleTable false) (sampleTable true) 7
      none where
  inputsSize := rfl
  nhwc := rfl
  nchw := rfl
  types := by decide
  others i hi hinput hflag _ := by
    have hlt : i < 8 := hi
    have hcases : i = 1 ∨ i = 2 ∨ i = 3 ∨ i = 4 ∨ i = 5 ∨ i = 6 := by omega
    rcases hcases with rfl | rfl | rfl | rfl | rfl | rfl <;>
      exact ⟨⟨rfl, rfl, rfl, rfl⟩, rfl, rfl, fun T => by cases T <;> rfl,
        fun T => by cases T <;> decide, rfl⟩
  input := ⟨rfl, rfl, rfl, rfl⟩
  perTensor := by decide
  dimensions := ⟨1, 3, 2, 1, rfl, rfl⟩
  outputShape := nofun
  scale := rfl

theorem sampleLayout_law :
    let M := reference (sampleInputs (sampleSizes false))
    let run (nchw : Bool) := exec (answer (.checking M)) (Conv2d.createNode (sampleLayout nchw))
      (sampleTable nchw)
    (returnedNode (run false)).denote M 0 =
      ((returnedNode (run true)).denote M 0).transpose [0, 2, 3, 1] :=
  createNode_layout reference_transposes reference_elementwise (fun _ => rfl)
    (Ngraph.checking_checksOrders _)
    (rfl : LayoutOperation.conv2d.flag (sampleLayout false) = some 7) sampleLayout_relaid rfl
    (fun _ h => by cases h; exact ⟨rfl, rfl, rfl⟩)
    (fun _ h => by cases h; exact ⟨rfl, rfl, rfl⟩) rfl rfl

end NnHal
