import NnHal.Matrices
import NnHal.NnapiShapes

/-!
# What NNAPI's layers compute

The layers read weights and a bias besides their input.  A bias beside quantized
tensors is a tensor of integers with a scale.  The windows of a convolution and
of a pooling come from constants of the model, at the positions of one of two
signatures: the paddings are given, or a scheme stands for them.
-/

namespace NnHal

open Tensors Quantization
open scoped BigOperators

/-! ## Parameters -/

/-- The parameters of a pooling. -/
structure PoolParams where
  padding : Padding
  strideWidth : Int
  strideHeight : Int
  filterWidth : Int
  filterHeight : Int
  activation : Int
  nchw : Bool
  deriving DecidableEq, Repr

namespace PoolParams

/-- The window along the height. -/
def vertical (p : PoolParams) (size : Nat) : Window :=
  let stride := p.strideHeight.toNat
  match p.padding with
  | .same => Window.same stride 1 size p.filterHeight.toNat
  | .valid => Window.valid stride 1
  | .explicit _ _ top bottom => { stride, dilation := 1, padHead := top, padTail := bottom }

/-- The window along the width. -/
def horizontal (p : PoolParams) (size : Nat) : Window :=
  let stride := p.strideWidth.toNat
  match p.padding with
  | .same => Window.same stride 1 size p.filterWidth.toNat
  | .valid => Window.valid stride 1
  | .explicit left right _ _ => { stride, dilation := 1, padHead := left, padTail := right }

/-- Strides and filters are at least one, explicit paddings are not negative. -/
structure Positive (p : PoolParams) : Prop where
  strideWidth : 1 ≤ p.strideWidth
  strideHeight : 1 ≤ p.strideHeight
  filterWidth : 1 ≤ p.filterWidth
  filterHeight : 1 ≤ p.filterHeight
  paddings : ∀ left right top bottom, p.padding = .explicit left right top bottom →
    0 ≤ left ∧ 0 ≤ right ∧ 0 ≤ top ∧ 0 ≤ bottom

/-- No window is without a cell. -/
def Covers (window : Window) (filter size : Nat) : Prop :=
  ∀ i : Nat, i < window.outputSize size filter → Tensor.taps window filter size i ≠ []

/-- No window of the pooling is without a cell. -/
def CoversCells (p : PoolParams) (h w : Nat) : Prop :=
  Covers (p.vertical h) p.filterHeight.toNat h ∧ Covers (p.horizontal w) p.filterWidth.toNat w

/-- An activated function of the cells that a window covers. -/
noncomputable def pooled (p : PoolParams) (f : List ℝ → ℝ) (n h w c : Nat) (x : Tensor ℝ) :
    Tensor ℝ :=
  arranged p.nchw n ((p.vertical h).outputSize h p.filterHeight.toNat)
    ((p.horizontal w).outputSize w p.filterWidth.toNat) c fun b i j k =>
      fusedActivation p.activation
        (f ((Tensor.taps (p.vertical h) p.filterHeight.toNat h i).flatMap fun y =>
          (Tensor.taps (p.horizontal w) p.filterWidth.toNat w j).map fun z =>
            x.get (arrange p.nchw b y z k)))

end PoolParams

/-- The square root of the mean square. -/
noncomputable def rootMeanSquare (l : List ℝ) : ℝ := √(average (l.map fun v => v * v))

namespace Arguments

variable (g : Arguments)

/-- The input is a constant of the model. -/
def Constant (k : Nat) : Prop :=
  (g.number .int32 k).isSome = true ∧ (g.number .uint8 k).isSome = true

/-- The inputs from a position on are constants of the model. -/
def ConstantFrom (first : Nat) : Prop := ∀ k, first ≤ k → k < g.count → g.Constant k

/-- An integer that is given. -/
def integer (k : Nat) : Int := (g.number .int32 k).getD 0

/-- An optional integer, one where the operation ends before it. -/
def optionalInteger (k : Nat) : Int := if k < g.count then g.integer k else 1

/-- The layout flag, NHWC where the operation ends before it. -/
def layoutFlag (k : Nat) : Bool := k < g.count ∧ (g.number .uint8 k).getD 0 ≠ 0

/-- The two signatures: a minimal number of inputs and the number of optional ones
of either.  Where both have so many, the type of one input tells which it is. -/
def signature (explicitMin implicitMin optional flag : Nat) : Option Bool :=
  if explicitMin ≤ g.count ∧ g.count ≤ explicitMin + optional ∧
      (flag < g.count → (g.operand flag).type ≠ .bool) then some true
  else if implicitMin ≤ g.count ∧ g.count ≤ implicitMin + optional ∧
      (flag < g.count → (g.operand flag).type = .bool) then some false
  else none

/-! ## Fully connected -/

open Classical in
/-- The numbers of a bias. -/
noncomputable def bias : Option (Tensor ℝ) :=
  match (g.operand 0).type with
  | .tensorFloat32 | .tensorFloat16 => g.tensor 2
  | .tensorQuant8Asymm | .tensorQuant8AsymmSigned =>
      if (g.operand 2).type = .tensorInt32 ∧ (Scalar.float32 (g.operand 2).scale).Finite then
        (g.tensor 2).map fun q => q.map fun v => v * (Scalar.float32 (g.operand 2).scale).real
      else none
  | _ => none

open Classical in
/-- The rows of the input by those of the weights, with the bias and an activation. -/
noncomputable def fullyConnected : Option (Tensor ℝ) :=
  (g.tensor 0).bind fun x => (g.tensor 1).bind fun w => g.bias.bind fun bias =>
    (g.number .int32 3).bind fun code =>
      let units := w.shape.getD 0 0
      let width := w.shape.getD 1 0
      let count := x.shape.prod / width
      if (g.Declared 0 x ∧ 2 ≤ x.shape.length ∧ x.shape.prod = count * width ∧
          x.shape.prod < 2 ^ 31) ∧ (g.Declared 1 w ∧ w.shape = [units, width] ∧
          0 < width ∧ width < 2 ^ 31) ∧ g.Given 2 ∧ g.Declared 2 bias ∧ bias.shape = [units] then
        some ((Tensor.broadcast (· + ·) ((x.reshape [count, width]).mulTransposed w) bias).map
          (fusedActivation code))
      else none

/-! ## Convolutions -/

/-- The parameters at the positions of a signature. -/
def convParams (explicit : Bool) (extra : Nat) : ConvParams :=
  let stride := OperationsBase.strideInput explicit
  let activation := stride + 2 + extra
  { padding :=
      if explicit then .explicit (g.integer 3) (g.integer 4) (g.integer 5) (g.integer 6)
      else if g.integer 3 = 1 then .same
      else .valid
    strideWidth := g.integer stride
    strideHeight := g.integer (stride + 1)
    activation := g.integer activation
    nchw := g.layoutFlag (activation + 1)
    dilationWidth := g.optionalInteger (activation + 2)
    dilationHeight := g.optionalInteger (activation + 3) }

/-- The signature of a convolution with so many inputs before the activation. -/
def convSignature (extra : Nat) : Option Bool := g.signature (10 + extra) (7 + extra) 3 (7 + extra)

open Classical in
/-- Every entry is the activated bias plus a sum over the taps and the channels. -/
noncomputable def conv2d : Option (Tensor ℝ) :=
  (g.tensor 0).bind fun x => (g.tensor 1).bind fun w => g.bias.bind fun bias =>
    (g.convSignature 0).bind fun explicit =>
      let p := g.convParams explicit 0
      let n := batches x.shape
      let h := rows p.nchw x.shape
      let wd := columns p.nchw x.shape
      let c := channels p.nchw x.shape
      let o := w.shape.getD 0 0
      let fh := w.shape.getD 1 0
      let fw := w.shape.getD 2 0
      if g.ConstantFrom 3 ∧ p.Positive ∧ x.shape = arrange p.nchw n h wd c ∧
          w.shape = [o, fh, fw, c] ∧ g.Declared 2 bias ∧ bias.shape = [o] then
        some (arranged p.nchw n ((p.vertical h fh).outputSize h fh)
          ((p.horizontal wd fw).outputSize wd fw) o fun b i j k =>
            fusedActivation p.activation (bias.get [k] +
              ∑ di ∈ Finset.range fh, ∑ dj ∈ Finset.range fw, ∑ l ∈ Finset.range c,
                x.get (arrange p.nchw b ((p.vertical h fh).coord i di)
                  ((p.horizontal wd fw).coord j dj) l) * w.get [k, di, dj, l]))
      else none

open Classical in
/-- Every input channel has a filter for each of its output channels. -/
noncomputable def depthwiseConv2d : Option (Tensor ℝ) :=
  (g.tensor 0).bind fun x => (g.tensor 1).bind fun w => g.bias.bind fun bias =>
    (g.convSignature 1).bind fun explicit =>
      let p := g.convParams explicit 1
      let n := batches x.shape
      let h := rows p.nchw x.shape
      let wd := columns p.nchw x.shape
      let c := channels p.nchw x.shape
      let fh := w.shape.getD 1 0
      let fw := w.shape.getD 2 0
      let m := (g.integer (OperationsBase.strideInput explicit + 2)).toNat
      if g.ConstantFrom 3 ∧ p.Positive ∧ g.Declared 0 x ∧ x.shape = arrange p.nchw n h wd c ∧
          w.shape = [1, fh, fw, c * m] ∧ g.Declared 2 bias ∧ bias.shape = [c * m] ∧
            0 ∉ [c, m, fh, fw] ∧ c < 2 ^ 31 then
        some (arranged p.nchw n ((p.vertical h fh).outputSize h fh)
          ((p.horizontal wd fw).outputSize wd fw) (c * m) fun b i j k =>
            fusedActivation p.activation (bias.get [k] +
              ∑ di ∈ Finset.range fh, ∑ dj ∈ Finset.range fw,
                x.get (arrange p.nchw b ((p.vertical h fh).coord i di)
                  ((p.horizontal wd fw).coord j dj) (k / m)) * w.get [0, di, dj, k]))
      else none

/-! ## Pooling -/

/-- The parameters of a pooling at the positions of a signature. -/
def poolParams (explicit : Bool) : PoolParams :=
  let stride := if explicit then 5 else 2
  { padding :=
      if explicit then .explicit (g.integer 1) (g.integer 2) (g.integer 3) (g.integer 4)
      else if g.integer 1 = 1 then .same
      else .valid
    strideWidth := g.integer stride
    strideHeight := g.integer (stride + 1)
    filterWidth := g.integer (stride + 2)
    filterHeight := g.integer (stride + 3)
    activation := g.integer (stride + 4)
    nchw := g.layoutFlag (stride + 5) }

/-- Ten or eleven inputs, or seven or eight. -/
def poolSignature : Option Bool :=
  if 10 ≤ g.count ∧ g.count ≤ 11 then some true
  else if 7 ≤ g.count ∧ g.count ≤ 8 then some false
  else none

open Classical in
noncomputable def pooling (f : List ℝ → ℝ) : Option (Tensor ℝ) :=
  (g.tensor 0).bind fun x => g.poolSignature.bind fun explicit =>
    let p := g.poolParams explicit
    let n := batches x.shape
    let h := rows p.nchw x.shape
    let w := columns p.nchw x.shape
    let c := channels p.nchw x.shape
    if g.ConstantFrom 1 ∧ (explicit = false → g.integer 1 = 1 ∨ g.integer 1 = 2) ∧ p.Positive ∧
        x.shape = arrange p.nchw n h w c ∧ p.CoversCells h w then
      some (p.pooled f n h w c x)
    else none

end Arguments

end NnHal
