import NnHal.Convolution
import NnHal.Denotations

/-!
# Convolutions as NNAPI defines them

`ConvParams` is what an NNAPI convolution is given besides its tensors, read
at the positions of its two signatures.  Its two windows say which cells of the
input a tap reads.  Below that, the driver's three convolution classes are
brought to the same terms: the local variables they read are these parameters,
the attributes they build have these windows, and bias, activation and layout
come out entry by entry.
-/

namespace NnHal

open Command Tensors

/-! ## Parameters -/

/-- Batch, height, width and channel in the order of the layout. -/
def arrange {α : Type} (nchw : Bool) (n h w c : α) : List α :=
  if nchw then [n, c, h, w] else [n, h, w, c]

inductive Padding
  | same
  | valid
  | explicit (left right top bottom : Int)
  deriving DecidableEq, Repr

/-- The parameters of a convolution. -/
structure ConvParams where
  padding : Padding
  strideWidth : Int
  strideHeight : Int
  dilationWidth : Int
  dilationHeight : Int
  activation : Int
  nchw : Bool
  deriving DecidableEq, Repr

namespace ConvParams

/-- The window along the height. -/
def vertical (p : ConvParams) (size filter : Nat) : Window :=
  let stride := p.strideHeight.toNat
  let dilation := p.dilationHeight.toNat
  match p.padding with
  | .same => Window.same stride dilation size filter
  | .valid => Window.valid stride dilation
  | .explicit _ _ top bottom => { stride, dilation, padHead := top, padTail := bottom }

/-- The window along the width. -/
def horizontal (p : ConvParams) (size filter : Nat) : Window :=
  let stride := p.strideWidth.toNat
  let dilation := p.dilationWidth.toNat
  match p.padding with
  | .same => Window.same stride dilation size filter
  | .valid => Window.valid stride dilation
  | .explicit left right _ _ => { stride, dilation, padHead := left, padTail := right }

/-- Strides and dilations are at least one. -/
structure Positive (p : ConvParams) : Prop where
  strideWidth : 1 ≤ p.strideWidth
  strideHeight : 1 ≤ p.strideHeight
  dilationWidth : 1 ≤ p.dilationWidth
  dilationHeight : 1 ≤ p.dilationHeight

end ConvParams

namespace OperationsBase

variable (self : OperationsBase)

/-- The value of an `INT32` input. -/
def int32Input (index : Nat) : Int :=
  self.sModelInfo.scalarValue .int32 (self.inputIndex index)

/-- An optional `INT32` input, one where the operation ends before it. -/
def optionalInput (index : Nat) : Int :=
  if index < self.inputsSize then self.int32Input index else 1

/-- The layout flag, NHWC where the operation ends before it. -/
def layoutInput (index : Nat) : Bool :=
  index < self.inputsSize ∧ self.sModelInfo.scalarValue .uint8 (self.inputIndex index) ≠ 0

/-- Whether the padding of a convolution is given explicitly.  `extra` inputs
come between the strides and the activation. -/
inductive ConvSignature (extra optional : Nat) : (explicit : Bool) → Prop
  | implicit (hmin : 7 + extra ≤ self.inputsSize)
      (hmax : self.inputsSize ≤ 7 + extra + optional)
      (layout : 7 + extra < self.inputsSize →
        self.checkInputOperandType (7 + extra) .bool = true) :
      ConvSignature extra optional false
  | explicit (hmin : 10 + extra ≤ self.inputsSize)
      (hmax : self.inputsSize ≤ 10 + extra + optional)
      (stride : self.checkInputOperandType (7 + extra) .bool = false) :
      ConvSignature extra optional true

/-- The input that holds the width of the stride. -/
def strideInput (explicit : Bool) : Nat := if explicit then 7 else 4

/-- The parameters at the positions of a signature. -/
def convParams (explicit : Bool) (extra : Nat) : ConvParams :=
  let stride := strideInput explicit
  let activation := stride + 2 + extra
  { padding :=
      if explicit then
        .explicit (self.int32Input 3) (self.int32Input 4) (self.int32Input 5)
          (self.int32Input 6)
      else if self.int32Input 3 = 1 then .same
      else .valid
    strideWidth := self.int32Input stride
    strideHeight := self.int32Input (stride + 1)
    activation := self.int32Input activation
    nchw := self.layoutInput (activation + 1)
    dilationWidth := self.optionalInput (activation + 2)
    dilationHeight := self.optionalInput (activation + 3) }

end OperationsBase

/-! ## The driver reads these parameters -/

/-- The positions of a class are those of NNAPI's signatures. -/
structure ConvClass.Follows (cls : ConvClass) (extra optional : Nat) : Prop where
  implicitMin : cls.implicitMin = 7 + extra
  implicitMax : cls.implicitMax = 7 + extra + optional
  explicitMin : cls.explicitMin = 10 + extra
  explicitMax : cls.explicitMax = 10 + extra + optional
  layoutInput : cls.layoutInput = 7 + extra
  extra : extra = if cls.hasGroups then 1 else 0
  optional : optional ≤ 3

theorem Conv2d.cls_follows : Conv2d.cls.Follows 0 3 := ⟨rfl, rfl, rfl, rfl, rfl, rfl, by decide⟩

theorem DepthwiseConv2d.cls_follows : DepthwiseConv2d.cls.Follows 1 3 :=
  ⟨rfl, rfl, rfl, rfl, rfl, rfl, by decide⟩

theorem GroupedConv2d.cls_follows : GroupedConv2d.cls.Follows 1 1 :=
  ⟨rfl, rfl, rfl, rfl, rfl, rfl, by decide⟩

/-- A class with groups has the number of groups in front of the activation. -/
theorem ConvClass.Follows.activation {cls : ConvClass} {extra optional : Nat}
    (h : cls.Follows extra optional) (index : Nat) :
    (if cls.hasGroups then index + 1 else index) = index + extra := by
  rw [h.extra]
  cases cls.hasGroups <;> rfl

/-- The local variables hold the parameters. -/
structure ConvLocals.Holds (l : ConvLocals) (p : ConvParams) : Prop where
  strideWidth : l.strideWidth = some p.strideWidth
  strideHeight : l.strideHeight = some p.strideHeight
  dilationWidth : l.dilationWidthFactor = p.dilationWidth
  dilationHeight : l.dilationHeightFactor = p.dilationHeight
  activation : l.activationFn = some p.activation
  nchw : l.useNchw = p.nchw
  same : p.padding = .same → l.autoPad = some .sameUpper
  valid : p.padding = .valid → l.autoPad = some .valid
  explicit : ∀ left right top bottom, p.padding = .explicit left right top bottom →
    l.autoPad = some .explicit ∧ l.paddingLeft = some left ∧ l.paddingRight = some right ∧
      l.paddingTop = some top ∧ l.paddingBottom = some bottom

section Reading

variable {self : OperationsBase} {cls : ConvClass} {ng : Ngraph} {nodes : NgraphNodes}

theorem toInt32_decode (bytes : List UInt8) :
    toInt32 (CType.uint32.decode bytes) = CType.int32.decode bytes := by
  have h : CType.uint32.decode bytes = (littleEndian (bytes.take 4) : Int) := rfl
  rw [h]
  unfold CType.decode toInt32
  rfl

/-- A `uint32_t` read that is stored in an `int32_t` is the signed value. -/
theorem toInt32_scalarValue {info : NnapiModelInfo} {index : Nat} :
    toInt32 (info.scalarValue .uint32 index) = info.scalarValue .int32 index := by
  unfold NnapiModelInfo.scalarValue
  cases info.operandBuffer index with
  | none =>
      rw [Option.map_none, Option.map_none, Option.getD_none]
      simp [toInt32, Int.bmod]
  | some bytes =>
      rw [Option.map_some, Option.map_some, Option.getD_some, Option.getD_some]
      exact toInt32_decode bytes

theorem int32Input_lt (index : Nat) : self.int32Input index < 2 ^ 31 := by
  unfold OperationsBase.int32Input
  rw [← toInt32_scalarValue]
  unfold toInt32
  have := @Int.bmod_lt (self.sModelInfo.scalarValue .uint32 (self.inputIndex index)) (2 ^ 32)
    (by decide)
  omega

theorem returns_parse {T : CType} {index : Nat} :
    Returns (answer ng) nodes (self.parseOperationInput T index)
      (· = self.sModelInfo.scalarValue T (self.inputIndex index)) :=
  returns_getConstOperand

theorem returns_parseInt32 {index : Nat} :
    Returns (answer ng) nodes (self.parseInt32 index) (· = self.int32Input index) := by
  refine returns_parse.bind fun v hv => returns_pure ?_
  rw [hv, toInt32_scalarValue]
  rfl

theorem returns_parseInt32If {b : Prop} [Decidable b] {index : Nat} {otherwise : Int} :
    Returns (answer ng) nodes (self.parseInt32If b index otherwise)
      (· = if b then self.int32Input index else otherwise) := by
  unfold OperationsBase.parseInt32If
  by_cases hb : b
  · simpa [hb] using returns_parseInt32
  · simp only [hb, if_false]
    exact returns_pure rfl

/-- The optional inputs after the activation. -/
theorem returns_convTrailing {index : Nat} (hmax : self.inputsSize ≤ index + 4) :
    Returns (answer ng) nodes (self.convTrailing index)
      (· = (self.optionalInput (index + 3), self.optionalInput (index + 2),
        self.layoutInput (index + 1))) := by
  apply returns_parseInt32If.bind
  intro height hheight
  apply returns_parseInt32If.bind
  intro width hwidth
  refine Returns.bind (Q := fun v => v = if index + 1 < self.inputsSize then
      self.sModelInfo.scalarValue .uint8 (self.inputIndex (index + 1)) else 0)
    (returns_ite (fun h => ?_) fun h => returns_pure ?_) fun layout hlayout => returns_pure ?_
  · have hlt : index + 1 < self.inputsSize := by omega
    simpa [hlt] using returns_parse
  · have hlt : ¬ index + 1 < self.inputsSize := by omega
    simp [hlt]
  · have hheight' : height = self.optionalInput (index + 3) := by
      have hiff : self.inputsSize = index + 4 ↔ index + 3 < self.inputsSize := by omega
      rw [hheight, OperationsBase.optionalInput]
      simp only [hiff]
    have hwidth' : width = self.optionalInput (index + 2) := by
      have hiff : self.inputsSize = index + 3 ∨ self.inputsSize = index + 4 ↔
          index + 2 < self.inputsSize := by omega
      rw [hwidth, OperationsBase.optionalInput]
      simp only [hiff]
    rw [hheight', hwidth', hlayout]
    unfold OperationsBase.layoutInput
    by_cases hlt : index + 1 < self.inputsSize <;> simp [hlt]

theorem returns_convGroups {index : Nat} :
    Returns (answer ng) nodes (OperationsBase.convGroups self cls index)
      (· = if cls.hasGroups then some (self.int32Input index) else none) := by
  unfold OperationsBase.convGroups
  by_cases hg : cls.hasGroups
  · simp only [hg, if_true]
    exact returns_parseInt32.bind fun v hv => returns_pure (by rw [hv])
  · simp only [hg, Bool.false_eq_true, if_false]
    exact returns_pure rfl

theorem returns_convInputSizes {hasChannel useNchw : Bool} :
    Returns (answer ng) nodes (self.convInputSizes hasChannel useNchw)
      (·.2.2 = if hasChannel then some (toInt32
        ((self.getInputOperandDimensions 0).getD (if useNchw then 1 else 3) 0)) else none) := by
  refine Returns.bind (Q := fun _ => True) (returns_dimAt trivial) fun _ _ => ?_
  refine Returns.bind (Q := fun _ => True) (returns_dimAt trivial) fun _ _ => ?_
  cases hasChannel with
  | true =>
      refine Returns.bind (Q := (· = _)) (returns_dimAt rfl) ?_
      intro _ heq
      subst heq
      exact returns_pure rfl
  | false => exact returns_pure rfl

theorem returns_calculateExplicitPadding {inSize stride filterSize paddingImplicit : Int} :
    Returns (answer ng) nodes
      (calculateExplicitPadding inSize stride filterSize paddingImplicit) fun _ => True := by
  unfold calculateExplicitPadding
  refine returns_ite (fun _ => ?_) fun _ => returns_pure trivial
  refine Returns.bind (Q := fun _ => True) (returns_divInt trivial) fun _ _ => ?_
  exact returns_ite (fun _ => returns_pure trivial) fun _ => returns_pure trivial

/-- The padding type an implicit scheme stands for. -/
theorem returns_convImplicitPadding {scheme strideWidth strideHeight inputWidth inputHeight
    filterWidth filterHeight : Int} :
    Returns (answer ng) nodes (OperationsBase.convImplicitPadding cls scheme strideWidth
      strideHeight inputWidth inputHeight filterWidth filterHeight)
      (·.2 = if scheme = 1 then .sameUpper else .valid) := by
  unfold OperationsBase.convImplicitPadding
  by_cases hscheme : scheme = 1
  · simp only [hscheme, if_true]
    refine returns_calculateExplicitPadding.bind fun _ _ => ?_
    exact returns_calculateExplicitPadding.bind fun _ _ => returns_pure rfl
  · simp only [hscheme, if_false]
    exact returns_ite (fun _ => returns_pure rfl) fun _ => returns_pure rfl

variable {extra optional : Nat} {explicit : Bool}

/-- The group count or multiplier, and the channel count of the input. -/
def ConvLocals.HasCounts (l : ConvLocals) (self : OperationsBase) (cls : ConvClass)
    (explicit : Bool) : Prop :=
  l.numberGroups = (if cls.hasGroups then
    some (self.int32Input (OperationsBase.strideInput explicit + 2)) else none) ∧
  l.inputChannel = (if cls.hasChannel then some (toInt32
    ((self.getInputOperandDimensions 0).getD (if l.useNchw then 1 else 3) 0)) else none)

theorem returns_convExplicitLocals (hcls : cls.Follows extra optional)
    (hmax : self.inputsSize ≤ 10 + extra + optional) :
    Returns (answer ng) nodes (OperationsBase.convExplicitLocals self cls) fun l =>
      l.Holds (self.convParams true extra) ∧ l.HasCounts self cls true := by
  have hactivation := hcls.activation 9
  have hoptional := hcls.optional
  apply returns_parseInt32.bind
  intro left hleft
  apply returns_parseInt32.bind
  intro right hright
  apply returns_parseInt32.bind
  intro top htop
  apply returns_parseInt32.bind
  intro bottom hbottom
  apply returns_parseInt32.bind
  intro strideWidth hstrideWidth
  apply returns_parseInt32.bind
  intro strideHeight hstrideHeight
  apply returns_convGroups.bind
  intro numberGroups hgroups
  simp only [hactivation]
  apply returns_parseInt32.bind
  intro activationFn hact
  apply (returns_convTrailing (by omega)).bind
  intro trailing htrailing
  subst htrailing
  refine returns_convInputSizes.bind fun sizes hsizes => returns_pure ?_
  subst hleft hright htop hbottom hstrideWidth hstrideHeight hact hgroups
  refine ⟨⟨rfl, rfl, rfl, rfl, rfl, rfl, ?_, ?_, ?_⟩, rfl, hsizes⟩
  · intro hsame
    exact absurd hsame (by simp [OperationsBase.convParams])
  · intro hvalid
    exact absurd hvalid (by simp [OperationsBase.convParams])
  · intro left right top bottom h
    simp only [OperationsBase.convParams, if_true, Padding.explicit.injEq] at h
    rcases h with ⟨rfl, rfl, rfl, rfl⟩
    exact ⟨rfl, rfl, rfl, rfl, rfl⟩

theorem returns_convImplicitLocals (hcls : cls.Follows extra optional)
    (hmax : self.inputsSize ≤ 7 + extra + optional) {filterWidth filterHeight : Int} :
    Returns (answer ng) nodes
      (OperationsBase.convImplicitLocals self cls filterWidth filterHeight) fun l =>
      l.Holds (self.convParams false extra) ∧ l.HasCounts self cls false := by
  have hactivation := hcls.activation 6
  have hoptional := hcls.optional
  apply returns_parseInt32.bind
  intro scheme hscheme
  apply returns_parseInt32.bind
  intro strideWidth hstrideWidth
  apply returns_parseInt32.bind
  intro strideHeight hstrideHeight
  apply returns_convGroups.bind
  intro numberGroups hgroups
  simp only [hactivation]
  apply returns_parseInt32.bind
  intro activationFn hact
  apply (returns_convTrailing (by omega)).bind
  intro trailing htrailing
  subst htrailing
  apply returns_convInputSizes.bind
  intro sizes hsizes
  refine returns_convImplicitPadding.bind fun padding hpadding => returns_pure ?_
  subst hscheme hstrideWidth hstrideHeight hact hgroups
  refine ⟨⟨rfl, rfl, rfl, rfl, rfl, rfl, ?_, ?_, ?_⟩, rfl, hsizes⟩
  · intro hsame
    by_cases h : self.int32Input 3 = 1
    · simp [hpadding, h]
    · exact absurd hsame (by simp [OperationsBase.convParams, h])
  · intro hvalid
    by_cases h : self.int32Input 3 = 1
    · exact absurd hvalid (by simp [OperationsBase.convParams, h])
    · simp [hpadding, h]
  · intro left right top bottom h
    simp only [OperationsBase.convParams, Bool.false_eq_true, if_false] at h
    split at h <;> cases h

/-- **The parameters.**  Under either signature the local variables hold what
NNAPI says the inputs mean. -/
theorem returns_convLocals (hcls : cls.Follows extra optional)
    (hsig : self.ConvSignature extra optional explicit) :
    Returns (answer ng) nodes (OperationsBase.convLocals self cls) fun l =>
      l.Holds (self.convParams explicit extra) ∧ l.HasCounts self cls explicit := by
  refine Returns.bind (Q := fun _ => True) (returns_dimAt trivial) fun _ _ => ?_
  refine Returns.bind (Q := fun _ => True) (returns_dimAt trivial) fun _ _ => ?_
  cases hsig with
  | implicit hmin hmax hlayout =>
      have hnot : OperationsBase.convExplicit self cls = false := by
        simp only [OperationsBase.convExplicit, decide_eq_false_iff_not]
        intro hboth
        rcases hboth with ⟨hge, _, hbool⟩
        rw [hcls.explicitMin] at hge
        rw [hcls.layoutInput] at hbool
        exact hbool (hlayout (by omega))
      have himplicit : OperationsBase.convImplicit self cls = true := by
        simp only [OperationsBase.convImplicit, hnot, hcls.implicitMin, hcls.implicitMax]
        simp [hmin, hmax]
      simp only [hnot, himplicit, Bool.false_eq_true, if_false, if_true]
      exact returns_convImplicitLocals hcls hmax
  | explicit hmin hmax hstride =>
      have hexplicit : OperationsBase.convExplicit self cls = true := by
        simp only [OperationsBase.convExplicit, hcls.explicitMin, hcls.explicitMax,
          hcls.layoutInput, hstride]
        simp [hmin, hmax]
      simp only [hexplicit, if_true]
      exact returns_convExplicitLocals hcls hmax

theorem optionalInput_lt (index : Nat) : self.optionalInput index < 2 ^ 31 := by
  unfold OperationsBase.optionalInput
  have hlt : self.int32Input index < 2 ^ 31 := int32Input_lt index
  split <;> omega

end Reading

/-! ## The attributes have the parameters' windows -/

/-- The window a class gives to the height, and the one it gives to the
width. -/
def ConvClass.first (cls : ConvClass) (p : ConvParams) : Nat → Nat → Window :=
  if cls.widthFirst then p.horizontal else p.vertical

def ConvClass.second (cls : ConvClass) (p : ConvParams) : Nat → Nat → Window :=
  if cls.widthFirst then p.vertical else p.horizontal

theorem toSizeT_of_pos {v : Int} (hpos : 1 ≤ v) (hlt : v < 2 ^ 31) : toSizeT v = v.toNat := by
  unfold toSizeT
  rw [Int.emod_eq_of_lt (by omega) (by omega)]

section Attributes

variable {self : OperationsBase} {cls : ConvClass} {ng : Ngraph} {nodes : NgraphNodes}
variable {explicit : Bool} {extra : Nat} {l : ConvLocals}

theorem returns_convAttrs (hl : l.Holds (self.convParams explicit extra))
    (hp : (self.convParams explicit extra).Positive) :
    Returns (answer ng) nodes (OperationsBase.convAttrs cls l) fun attrs =>
      ∀ size filter,
        attrs.window 0 size filter = cls.first (self.convParams explicit extra) size filter ∧
        attrs.window 1 size filter = cls.second (self.convParams explicit extra) size filter := by
  have hsw : toSizeT (self.convParams explicit extra).strideWidth =
      (self.convParams explicit extra).strideWidth.toNat :=
    toSizeT_of_pos hp.strideWidth (int32Input_lt _)
  have hsh : toSizeT (self.convParams explicit extra).strideHeight =
      (self.convParams explicit extra).strideHeight.toNat :=
    toSizeT_of_pos hp.strideHeight (int32Input_lt _)
  have hdw : toSizeT (self.convParams explicit extra).dilationWidth =
      (self.convParams explicit extra).dilationWidth.toNat :=
    toSizeT_of_pos hp.dilationWidth (optionalInput_lt _)
  have hdh : toSizeT (self.convParams explicit extra).dilationHeight =
      (self.convParams explicit extra).dilationHeight.toNat :=
    toSizeT_of_pos hp.dilationHeight (optionalInput_lt _)
  generalize self.convParams explicit extra = p at *
  refine Returns.bind (Q := (· = p.strideHeight)) (returns_readLocal (by simp [hl.strideHeight]))
    fun _ heq => ?_
  subst heq
  refine Returns.bind (Q := (· = p.strideWidth)) (returns_readLocal (by simp [hl.strideWidth]))
    fun _ heq => ?_
  subst heq
  refine Returns.bind (Q := (· = l.paddingTop.getD default)) (returns_readLocal rfl)
    fun top htop => ?_
  refine Returns.bind (Q := (· = l.paddingLeft.getD default)) (returns_readLocal rfl)
    fun left hleft => ?_
  refine Returns.bind (Q := (· = l.paddingBottom.getD default)) (returns_readLocal rfl)
    fun bottom hbottom => ?_
  refine Returns.bind (Q := (· = l.paddingRight.getD default)) (returns_readLocal rfl)
    fun right hright => ?_
  refine Returns.bind (Q := (· = l.autoPad.getD default)) (returns_readLocal rfl)
    fun autoPad hpad => returns_pure ?_
  intro size filter
  rw [hsw, hsh, hl.dilationWidth, hdw, hl.dilationHeight, hdh]
  unfold ConvClass.first ConvClass.second ConvParams.vertical ConvParams.horizontal
  cases hpadding : p.padding with
  | same =>
      rw [hl.same hpadding, Option.getD_some] at hpad
      subst hpad
      cases cls.widthFirst <;> exact ⟨rfl, rfl⟩
  | valid =>
      rw [hl.valid hpadding, Option.getD_some] at hpad
      subst hpad
      cases cls.widthFirst <;> exact ⟨rfl, rfl⟩
  | explicit left' right' top' bottom' =>
      obtain ⟨hauto, h1, h2, h3, h4⟩ := hl.explicit _ _ _ _ hpadding
      rw [hauto, Option.getD_some] at hpad
      rw [h1, Option.getD_some] at hleft
      rw [h2, Option.getD_some] at hright
      rw [h3, Option.getD_some] at htop
      rw [h4, Option.getD_some] at hbottom
      subst hpad hleft hright htop hbottom
      cases cls.widthFirst <;> exact ⟨rfl, rfl⟩

end Attributes

/-! ## Layout -/

section Layout

variable {R : Type} [Ring R] {M : Meaning R} {ng : Ngraph} {nodes : NgraphNodes}

/-- The NCHW tensor of a tensor in a layout, and back. -/
def toNchw (nchw : Bool) (x : Tensor R) : Tensor R :=
  if nchw then x else x.transpose [0, 3, 1, 2]

def fromNchw (nchw : Bool) (y : Tensor R) : Tensor R :=
  if nchw then y else y.transpose [0, 2, 3, 1]

theorem isOrder_nchw {rank : Nat} (h : rank = 4) : IsOrder [0, 3, 1, 2] rank := by
  subst h
  decide

theorem isOrder_nhwc {rank : Nat} (h : rank = 4) : IsOrder [0, 2, 3, 1] rank := by
  subst h
  decide

variable {nchw : Bool} {n h w c : Nat} {b k i j : Int} {x y : Tensor R}

theorem inside_arrange : Inside (arrange nchw n h w c) (arrange nchw b i j k) ↔
    Inside [n, c, h, w] [b, k, i, j] := by
  cases nchw
  · simp only [arrange, Bool.false_eq_true, if_false, inside_cons]
    tauto
  · simp [arrange]

theorem shape_toNchw (hx : x.shape = arrange nchw n h w c) :
    (toNchw nchw x).shape = [n, c, h, w] := by
  cases nchw
  · simp only [toNchw, arrange, Bool.false_eq_true, if_false] at hx ⊢
    rw [Tensor.shape_transpose, hx]
    rfl
  · simpa [toNchw, arrange] using hx

theorem get_toNchw (hx : x.shape = arrange nchw n h w c) :
    (toNchw nchw x).get [b, k, i, j] = x.get (arrange nchw b i j k) := by
  cases nchw
  · simp only [toNchw, arrange, Bool.false_eq_true, if_false] at hx ⊢
    rw [Tensor.get_transpose (isOrder_nchw (by rw [hx]; rfl)) (by rw [hx]; rfl)]
    rfl
  · simp [toNchw, arrange]

theorem shape_fromNchw (hy : y.shape = [n, c, h, w]) :
    (fromNchw nchw y).shape = arrange nchw n h w c := by
  cases nchw
  · simp only [fromNchw, arrange, Bool.false_eq_true, if_false]
    rw [Tensor.shape_transpose, hy]
    rfl
  · simpa [fromNchw, arrange] using hy

theorem get_fromNchw (hy : y.shape = [n, c, h, w]) :
    (fromNchw nchw y).get (arrange nchw b i j k) = y.get [b, k, i, j] := by
  cases nchw
  · simp only [fromNchw, arrange, Bool.false_eq_true, if_false]
    rw [Tensor.get_transpose (isOrder_nhwc (by rw [hy]; rfl)) (by rw [hy]; rfl)]
    rfl
  · simp [fromNchw, arrange]

/-- The driver's transposition is that of the tensor. -/
theorem returns_transpose (hM : M.Transposes) {type : ConversionType} {order : List Nat}
    (htype : type.order = order.map fun (a : Nat) => (a : Int)) {node : Node}
    (horder : IsOrder order (node.denote M 0).shape.length) :
    Returns (answer ng) nodes (transpose type (node, 0)) fun r =>
      r.denote M 0 = (node.denote M 0).transpose order := by
  refine Returns.bind (Q := fun orderNode => orderNode.denote M 0 =
    Tensor.ofList (order.map fun (a : Nat) => (a : R))) (returns_make ?_) fun orderNode hnode => ?_
  · have hcast : ((fun (v : Int) => (v : R)) ∘ fun (a : Nat) => (a : Int)) =
        fun (a : Nat) => (a : R) := by
      funext a
      simp
    have hconstant := hM.constant .i64 type.order
    rw [htype, List.map_map, List.map_map, hcast] at hconstant
    simpa [Node.denote, Node.denoteAll, htype] using hconstant
  · refine returns_make ?_
    have htranspose := hM.transpose (node.denote M 0) order horder
    simpa [Node.denote, Node.denoteAll, Node.denoteOutput, hnode] using htranspose

theorem returns_toNchw (hM : M.Transposes) {node : Node}
    (hx : (node.denote M 0).shape = arrange nchw n h w c) :
    Returns (answer ng) nodes (transposeUnless nchw .nhwcNchw node) fun r =>
      r.denote M 0 = toNchw nchw (node.denote M 0) := by
  unfold transposeUnless toNchw
  cases nchw
  · exact returns_transpose hM rfl (isOrder_nchw (by rw [hx]; rfl))
  · exact returns_pure rfl

theorem returns_fromNchw (hM : M.Transposes) {node : Node}
    (hy : (node.denote M 0).shape = [n, c, h, w]) :
    Returns (answer ng) nodes (transposeUnless nchw .nchwNhwc node) fun r =>
      r.denote M 0 = fromNchw nchw (node.denote M 0) := by
  unfold transposeUnless fromNchw
  cases nchw
  · exact returns_transpose hM rfl (isOrder_nhwc (by rw [hy]; rfl))
  · exact returns_pure rfl

end Layout

/-! ## Bias, activation and the result -/

section Result

variable {R : Type} [CommRing R] [LinearOrder R]

/-- `FusedActivationFunc`: none, ReLU, ReLU1 and ReLU6. -/
def fusedActivation (code : Int) (v : R) : R :=
  if code = 1 then max v 0
  else if code = 2 then min (max v (-1)) 1
  else if code = 3 then min (max v 0) 6
  else v

/-- A tensor of a layout given entry by entry. -/
def HasEntries (nchw : Bool) (n h w c : Nat) (entry : Int → Int → Int → Int → R)
    (t : Tensor R) : Prop :=
  t.shape = arrange nchw n h w c ∧
    ∀ b i j k, Inside (arrange nchw n h w c) (arrange nchw b i j k) →
      t.get (arrange nchw b i j k) = entry b i j k

variable {M : Meaning R} {ng : Ngraph} {nodes : NgraphNodes} {self : OperationsBase}

theorem returns_applyActivation (hM : M.AddsBias) {node : Node} {code : Int} :
    Returns (answer ng) nodes (applyActivation node code) fun r =>
      r.denote M 0 = (node.denote M 0).map (fusedActivation code) := by
  unfold applyActivation
  refine returns_ite (fun h => returns_pure ?_) fun h0 => ?_
  · subst h
    exact (Tensor.map_id _).symm
  refine returns_ite (fun h => returns_make ?_) fun h1 => ?_
  · subst h
    exact hM.relu _
  refine returns_ite (fun h => returns_make ?_) fun h2 => ?_
  · subst h
    have hclamp := hM.clamp (node.denote M 0) (-1) 1
    have hrelu1 : fusedActivation (R := R) 2 = fun v => min (max v (-1)) 1 := rfl
    rw [hrelu1]
    simpa [Node.denote, Node.denoteAll, Node.denoteOutput] using hclamp
  refine returns_ite (fun h => returns_make ?_) fun h3 => returns_pure ?_
  · subst h
    have hclamp := hM.clamp (node.denote M 0) 0 6
    have hrelu6 : fusedActivation (R := R) 3 = fun v => min (max v 0) 6 := rfl
    rw [hrelu6]
    simpa [Node.denote, Node.denoteAll, Node.denoteOutput] using hclamp
  · have hid : fusedActivation (R := R) code = fun v => v := by
      funext v
      simp [fusedActivation, h1, h2, h3]
    rw [hid, Tensor.map_id]

/-- The bias along the channel axis, added and activated. -/
def biased (code : Int) (y bias : Tensor R) : Tensor R :=
  (Tensor.broadcast (· + ·) y (bias.reshape [1, bias.shape.getD 0 0, 1, 1])).map
    (fusedActivation code)

section Entries

variable {code : Int} {y bias : Tensor R} {n o oh ow : Nat}

theorem shape_biased (hy : y.shape = [n, o, oh, ow]) (hbias : bias.shape = [o]) :
    (biased code y bias).shape = [n, o, oh, ow] := by
  have hone : ∀ d : Nat, (if d = 1 then 1 else d) = d := by
    intro d
    split <;> omega
  simp [biased, hy, hbias, Tensor.broadcastShape, hone]

theorem get_biased (hy : y.shape = [n, o, oh, ow]) (hbias : bias.shape = [o])
    {b k i j : Int} (hin : Inside [n, o, oh, ow] [b, k, i, j]) :
    (biased code y bias).get [b, k, i, j] =
      fusedActivation code (y.get [b, k, i, j] + bias.get [k]) := by
  have hshape : (biased code y bias).shape = [n, o, oh, ow] := shape_biased hy hbias
  have hin' : Inside (Tensor.broadcastShape y.shape
      (bias.reshape [1, bias.shape.getD 0 0, 1, 1]).shape) [b, k, i, j] := by
    have hsame : Tensor.broadcastShape y.shape
        (bias.reshape [1, bias.shape.getD 0 0, 1, 1]).shape = [n, o, oh, ow] := hshape
    rwa [hsame]
  have hk : 0 ≤ k ∧ k < o := by simpa using hin.2.1
  have halign : Tensor.alignIndex [1, o, 1, 1] [b, k, i, j] = [0, k, 0, 0] := by
    have hone : (if o = 1 then 0 else k) = k := by
      split
      · omega
      · rfl
    simp [Tensor.alignIndex, hone]
  have hbiasGet : (bias.reshape [1, o, 1, 1]).get [0, k, 0, 0] = bias.get [k] := by
    refine Tensor.get_reshape (by simpa using hk) (by simpa [hbias] using hk) ?_
    simp [hbias, flat]
  rw [biased, Tensor.get_map hin', Tensor.get_broadcast hin', hbias]
  simp only [List.getD_cons_zero, Tensor.shape_reshape, halign, hbiasGet]
  rw [Tensor.alignIndex_self (by rwa [hy])]

end Entries

theorem returns_addBias (hM : M.AddsBias) (ht : M.Transposes) (hng : ng.Infers M)
    {convNode biasNode : Node} {code : Int} {n o oh ow : Nat}
    (hy : (convNode.denote M 0).shape = [n, o, oh, ow])
    (hbias : (biasNode.denote M 0).shape = [o])
    (hdims : self.getInputOperandDimensions 2 = [o]) :
    Returns (answer ng) nodes (self.addBias convNode biasNode code) fun r =>
      r.denote M 0 = biased code (convNode.denote M 0) (biasNode.denote M 0) := by
  refine Returns.bind (Q := (· = [n, o, oh, ow])) (returns_getShape (by rw [hng, hy])) ?_
  intro _ heq
  subst heq
  apply Returns.bind (Q := (· = o)) (returns_dimAt (by rw [hdims]; rfl))
  intro bias heq
  rw [heq]
  refine Returns.bind (Q := fun _ => True) (returns_faultIf trivial) fun _ _ => ?_
  have hcast : ∀ l : List Nat, M (.constant .i32 [l.length] (l.map fun (d : Nat) => .int d)) [] 0 =
      Tensor.ofList (l.map fun (d : Nat) => (d : R)) := by
    intro l
    have hconstant := ht.constant .i32 (l.map fun (d : Nat) => (d : Int))
    simpa [Function.comp_def] using hconstant
  refine Returns.bind (Q := fun shapeNode => shapeNode.denote M 0 =
    Tensor.ofList ([1, o, 1, 1].map fun (d : Nat) => (d : R))) (returns_const ?_)
    fun shapeNode hshape => ?_
  · exact hcast [1, o, 1, 1]
  refine Returns.bind (Q := fun r => r.denote M 0 =
    (biasNode.denote M 0).reshape [1, o, 1, 1]) (returns_make ?_) fun reshaped hreshaped => ?_
  · have hreshape := hM.reshape (biasNode.denote M 0) [1, o, 1, 1]
    have hzero : Tensor.specialZero (biasNode.denote M 0).shape [1, o, 1, 1] = [1, o, 1, 1] := by
      simp only [hbias, Tensor.specialZero]
      by_cases ho : o = 0 <;> simp [ho]
    rw [hzero] at hreshape
    simpa [Node.denote, Node.denoteAll, Node.denoteOutput, hshape] using hreshape
  refine Returns.bind (Q := fun r => r.denote M 0 = Tensor.broadcast (· + ·)
    (convNode.denote M 0) ((biasNode.denote M 0).reshape [1, o, 1, 1])) (returns_make ?_)
    fun sum hsum => ?_
  · have hadd := hM.add (convNode.denote M 0) ((biasNode.denote M 0).reshape [1, o, 1, 1])
    simpa [Node.denote, Node.denoteAll, Node.denoteOutput, hreshaped] using hadd
  apply (returns_applyActivation hM).mono
  intro r hr
  rw [hr, hsum, biased, hbias]
  rfl

/-- The node the operation uses for an input denotes the tensor; a quantized
input is dequantized by then. -/
def OperationsBase.InputDenotes (self : OperationsBase) (ng : Ngraph) (M : Meaning R)
    (nodes : NgraphNodes) (index : Nat) (x : Tensor R) : Prop :=
  Returns (answer ng) nodes (self.getInputNode index) fun node => node.denote M 0 = x

/-- The same of the bias, which a quantized convolution scales itself. -/
def OperationsBase.BiasDenotes (self : OperationsBase) (ng : Ngraph) (M : Meaning R)
    (nodes : NgraphNodes) (bias : Tensor R) : Prop :=
  Returns (answer ng) nodes (self.getInputNode 2 >>= self.convBias) fun node =>
    node.denote M 0 = bias

/-- The node of the convolution itself. -/
def OperationsBase.convCore (cls : ConvClass) (l : ConvLocals) (inputNode filterNode : Node)
    (attrs : ConvAttrs) : Gen Node :=
  if cls.hasGroups then do
    let divisor ← readLocal (if cls.dividesByChannel then l.inputChannel else l.numberGroups)
    let filterNode ← groupedFilter cls filterNode divisor
    makeShared (.groupConvolution attrs) [inputNode, filterNode]
  else makeShared (.convolution attrs) [inputNode, filterNode]

/-- What follows once the three nodes are there. -/
def OperationsBase.convGraph (self : OperationsBase) (cls : ConvClass) (l : ConvLocals)
    (inputNode filterNode biasNode : Node) : Gen Node := do
  let filterNode ← transpose cls.filterOrder filterNode
  let inputNode ← transposeUnless l.useNchw .nhwcNchw inputNode
  let attrs ← convAttrs cls l
  let convNode ← convCore cls l inputNode filterNode attrs
  let activationFn ← readLocal l.activationFn
  let outputNode ← self.addBias convNode biasNode activationFn
  transposeUnless l.useNchw .nchwNhwc outputNode

/-- The bias is fetched and scaled before the graph is put together. -/
theorem convNode_eq (cls : ConvClass) :
    OperationsBase.convNode self cls = (do
      let l ← OperationsBase.convLocals self cls
      let inputNode ← self.getInputNode 0
      let filterNode ← self.getInputNode 1
      let biasNode ← self.getInputNode 2 >>= self.convBias
      self.convGraph cls l inputNode filterNode biasNode) := by
  unfold OperationsBase.convNode
  simp only [Prog.bind_assoc]
  rfl

section Graph

variable {cls : ConvClass} {extra optional : Nat} {explicit : Bool}
variable {x w bias y : Tensor R} {order : List Nat} {n h wd c o oh ow : Nat}

/-- Whatever tensor the convolution itself has, the graph adds the bias,
applies the activation and gives it back in the layout of the operation. -/
theorem returns_convGraph (hM : M.AddsBias) (ht : M.Transposes) (hng : ng.Infers M)
    (hp : (self.convParams explicit extra).Positive)
    (htype : cls.filterOrder.order = order.map fun (a : Nat) => (a : Int))
    (horder : IsOrder order w.shape.length)
    (hxshape : x.shape = arrange (self.convParams explicit extra).nchw n h wd c)
    (hbshape : bias.shape = [o]) (hdims : self.getInputOperandDimensions 2 = [o])
    (hy : y.shape = [n, o, oh, ow]) {l : ConvLocals}
    (hl : l.Holds (self.convParams explicit extra)) {inputNode filterNode biasNode : Node}
    (hinput : inputNode.denote M 0 = x) (hfilter : filterNode.denote M 0 = w)
    (hbias : biasNode.denote M 0 = bias)
    (hcore : ∀ inputNode filterNode attrs,
      inputNode.denote M 0 = toNchw (self.convParams explicit extra).nchw x →
      filterNode.denote M 0 = w.transpose order →
      (∀ size filter,
        attrs.window 0 size filter = cls.first (self.convParams explicit extra) size filter ∧
        attrs.window 1 size filter = cls.second (self.convParams explicit extra) size filter) →
      Returns (answer ng) nodes (OperationsBase.convCore cls l inputNode filterNode attrs)
        fun r => r.denote M 0 = y) :
    Returns (answer ng) nodes (self.convGraph cls l inputNode filterNode biasNode) fun r =>
      HasEntries (self.convParams explicit extra).nchw n oh ow o
        (fun b i j k => fusedActivation (self.convParams explicit extra).activation
          (y.get [b, k, i, j] + bias.get [k])) (r.denote M 0) := by
  unfold OperationsBase.convGraph
  apply (returns_transpose ht htype (by rwa [hfilter])).bind
  intro filterNode' hfilter'
  rw [hfilter] at hfilter'
  rw [hl.nchw]
  apply (returns_toNchw ht (by rw [hinput]; exact hxshape)).bind
  intro inputNode' hinput'
  rw [hinput] at hinput'
  apply (returns_convAttrs hl hp).bind
  intro attrs hattrs
  apply (hcore inputNode' filterNode' attrs hinput' hfilter' hattrs).bind
  intro convNode hconv
  refine Returns.bind (Q := (· = (self.convParams explicit extra).activation))
    (returns_readLocal (by simp [hl.activation])) fun code hcode => ?_
  rw [hcode]
  refine (returns_addBias hM ht hng (by rw [hconv]; exact hy) (by rw [hbias]; exact hbshape)
    hdims).bind fun outputNode hout => ?_
  rw [hconv, hbias] at hout
  have hshape : (biased (self.convParams explicit extra).activation y bias).shape =
      [n, o, oh, ow] := shape_biased hy hbshape
  apply (returns_fromNchw ht (by rw [hout]; exact hshape)).mono
  intro r hr
  rw [hr, hout]
  refine ⟨shape_fromNchw hshape, ?_⟩
  intro b i j k hin
  rw [get_fromNchw hshape, get_biased hy hbshape (inside_arrange.mp hin)]

/-- **One convolution class.**  Under either signature the node it returns is
the biased and activated convolution, in the layout of the operation. -/
theorem returns_convNode (hM : M.AddsBias) (ht : M.Transposes) (hng : ng.Infers M)
    (hcls : cls.Follows extra optional) (hsig : self.ConvSignature extra optional explicit)
    (hp : (self.convParams explicit extra).Positive)
    (htype : cls.filterOrder.order = order.map fun (a : Nat) => (a : Int))
    (horder : IsOrder order w.shape.length)
    (hx : self.InputDenotes ng M nodes 0 x) (hw : self.InputDenotes ng M nodes 1 w)
    (hbias : self.BiasDenotes ng M nodes bias)
    (hxshape : x.shape = arrange (self.convParams explicit extra).nchw n h wd c)
    (hbshape : bias.shape = [o]) (hdims : self.getInputOperandDimensions 2 = [o])
    (hy : y.shape = [n, o, oh, ow])
    (hcore : ∀ l inputNode filterNode attrs, l.Holds (self.convParams explicit extra) →
      l.HasCounts self cls explicit →
      inputNode.denote M 0 = toNchw (self.convParams explicit extra).nchw x →
      filterNode.denote M 0 = w.transpose order →
      (∀ size filter,
        attrs.window 0 size filter = cls.first (self.convParams explicit extra) size filter ∧
        attrs.window 1 size filter = cls.second (self.convParams explicit extra) size filter) →
      Returns (answer ng) nodes (OperationsBase.convCore cls l inputNode filterNode attrs)
        fun r => r.denote M 0 = y) :
    Returns (answer ng) nodes (OperationsBase.convNode self cls) fun r =>
      HasEntries (self.convParams explicit extra).nchw n oh ow o
        (fun b i j k => fusedActivation (self.convParams explicit extra).activation
          (y.get [b, k, i, j] + bias.get [k])) (r.denote M 0) := by
  rw [convNode_eq]
  apply (returns_convLocals hcls hsig).bind
  intro l hl
  apply hx.bind
  intro inputNode hinput
  apply hw.bind
  intro filterNode hfilter
  apply hbias.bind
  intro biasNode hbiasNode
  refine returns_convGraph hM ht hng hp htype horder hxshape hbshape hdims hy hl.1 hinput hfilter
    hbiasNode fun inputNode filterNode attrs => hcore l inputNode filterNode attrs hl.1 hl.2

/-! ### Grouped filters -/

variable {g m ci fh fw : Nat}

/-- The filter is reshaped to put the group axis in front. -/
theorem returns_groupedFilter (hM : M.AddsBias) (ht : M.Transposes) (hng : ng.Infers M)
    {filterNode : Node} {divisor : Int} (hdivisor : toSizeT divisor = g)
    (hf : (filterNode.denote M 0).shape = [g * m, ci, fh, fw])
    (hpos : ∀ d ∈ [g, m, ci, fh, fw], d ≠ 0) :
    Returns (answer ng) nodes (OperationsBase.groupedFilter cls filterNode divisor) fun r =>
      r.denote M 0 = (filterNode.denote M 0).reshape [g, m, ci, fh, fw] := by
  have hshapeAt : ∀ k, (ng.getShape filterNode).getD k 0 = [g * m, ci, fh, fw].getD k 0 := by
    intro k
    rw [hng, hf]
  have hquotient : g * m / g = m := Nat.mul_div_cancel_left m
    (Nat.pos_of_ne_zero (hpos g (by simp)))
  unfold OperationsBase.groupedFilter
  apply Returns.bind (Q := (· = g * m)) (returns_shapeAt (hshapeAt 0))
  intro d0 h0
  apply Returns.bind (Q := (· = ci)) (returns_shapeAt (hshapeAt 1))
  intro d1 h1
  apply Returns.bind (Q := (· = fh)) (returns_shapeAt (hshapeAt 2))
  intro d2 h2
  apply Returns.bind (Q := (· = fw)) (returns_shapeAt (hshapeAt 3))
  intro d3 h3
  refine Returns.bind (Q := (· = m)) (Returns.bind (Q := (· = ((g * m : Nat) : Int).tdiv g))
    (returns_divInt ?_) fun q hq => returns_pure ?_) fun d0' h0' => ?_
  · rw [h0, hdivisor]
  · rw [hq, ← Int.ofNat_tdiv, hquotient, Int.toNat_natCast]
  rw [hdivisor, h0', h1, h2, h3]
  have hconstant := ht.constant cls.shapeType ([g, m, ci, fh, fw].map fun (d : Nat) => (d : Int))
  refine Returns.bind (Q := fun shapeNode => shapeNode.denote M 0 =
    Tensor.ofList ([g, m, ci, fh, fw].map fun (d : Nat) => (d : R))) (returns_make ?_)
    fun shapeNode hshape => returns_make ?_
  · simpa [Node.denote, Node.denoteAll, Function.comp_def] using hconstant
  · have hreshape := hM.reshape (filterNode.denote M 0) [g, m, ci, fh, fw]
    rw [Tensor.specialZero_of_pos hpos] at hreshape
    simpa [Node.denote, Node.denoteAll, Node.denoteOutput, hshape] using hreshape

/-- The grouped convolution of the node, with the class's two windows. -/
theorem returns_groupedCore (hM : M.AddsBias) (ht : M.Transposes) (hng : ng.Infers M)
    (hconv : M.GroupConvolves) (hgroups : cls.hasGroups = true) {l : ConvLocals} {divisor : Int}
    (hlocal : (if cls.dividesByChannel then l.inputChannel else l.numberGroups) = some divisor)
    (hdivisor : toSizeT divisor = g) {inputNode filterNode : Node} {attrs : ConvAttrs}
    {first second : Window} (hx : (inputNode.denote M 0).shape = [n, c, h, wd])
    (hf : (filterNode.denote M 0).shape = [g * m, ci, fh, fw])
    (hpos : ∀ d ∈ [g, m, ci, fh, fw], d ≠ 0)
    (hfirst : attrs.window 0 h fh = first) (hsecond : attrs.window 1 wd fw = second) :
    Returns (answer ng) nodes (OperationsBase.convCore cls l inputNode filterNode attrs) fun r =>
      r.denote M 0 = Tensor.groupConvolve first second (inputNode.denote M 0)
        ((filterNode.denote M 0).reshape [g, m, ci, fh, fw]) := by
  unfold OperationsBase.convCore
  rw [if_pos hgroups, hlocal]
  apply Returns.bind (Q := (· = divisor)) (returns_readLocal rfl)
  intro d hd
  rw [hd]
  apply (returns_groupedFilter hM ht hng hdivisor hf hpos).bind
  intro filterNode' hfilter'
  refine returns_make ?_
  have hmeaning := hconv attrs (inputNode.denote M 0)
    ((filterNode.denote M 0).reshape [g, m, ci, fh, fw]) hx rfl
  rw [hfirst, hsecond] at hmeaning
  have hdenote : (Node.mk (.groupConvolution attrs) [(inputNode, 0), (filterNode', 0)]).denote M 0 =
      M (.groupConvolution attrs) [inputNode.denote M 0, filterNode'.denote M 0] 0 := rfl
  rw [hdenote, hfilter']
  exact hmeaning

end Graph

end Result

end NnHal
