import NnHal.EntrySelections
import NnHal.NnapiOperations
import NnHal.Reshaping

/-!
# What NNAPI's operations on the shape compute

Reshaping, selecting, joining, splitting and padding move entries and make no new
ones, and those on blocks and channels exchange axes.  An operation has a result
where NNAPI gives it one and the dimensions that the model declares are those of
the tensors.
-/

namespace NnHal

open Tensors Quantization

/-! ## Shapes -/

/-- The requested sizes, with what they leave of the entries in place of a negative
one. -/
def stretched (entries : Nat) (target : List Int) : List Nat :=
  let known := ((target.filter fun d => 0 ≤ d).map Int.toNat).prod
  target.map fun d => if d < 0 then entries / known else d.toNat

/-- The axes lie in a rank. -/
def InRank (rank : Nat) (axes : List Int) : Prop := ∀ a ∈ axes, -rank ≤ a ∧ a < rank

/-- A tensor of positions on an axis of that size. -/
def Positions (size : Nat) (positions : Tensor ℝ) : Prop :=
  ∀ index, Inside positions.shape index →
    ∃ i : Nat, i < size ∧ positions.get index = (i : ℝ)

/-! ### The sizes of a tensor in a layout -/

def batches (shape : List Nat) : Nat := shape.getD 0 0
def rows (nchw : Bool) (shape : List Nat) : Nat := shape.getD (if nchw then 2 else 1) 0
def columns (nchw : Bool) (shape : List Nat) : Nat := shape.getD (if nchw then 3 else 2) 0
def channels (nchw : Bool) (shape : List Nat) : Nat := shape.getD (if nchw then 1 else 3) 0

/-- A tensor in a layout, given entry by entry. -/
noncomputable def arranged (nchw : Bool) (n h w c : Nat) (entry : Int → Int → Int → Int → ℝ) :
    Tensor ℝ :=
  Tensor.ofFn (arrange nchw n h w c) fun
    | [b, p, q, r] => if nchw then entry b q r p else entry b p q r
    | _ => 0

/-- The types of which a part is a tensor of its own.  The signed quantized one is not
among them: its parts are converted to unsigned numbers. -/
def splitElement : OperandType → Option ElementType
  | .tensorFloat32 => some .f32
  | .tensorFloat16 => some .f16
  | .tensorInt32 => some .i32
  | .tensorQuant8Asymm => some .u8
  | _ => none

namespace Arguments

variable (g : Arguments)

/-- The dimensions of an input are those of its tensor. -/
def Declared (k : Nat) (x : Tensor ℝ) : Prop := (g.operand k).dimensions = x.shape

/-- The operation is not without the input. -/
def Given (k : Nat) : Prop := (g.operand k).lifetime ≠ .noValue

/-! ### Changing the rank -/

open Classical in
/-- The entries in row-major order under the requested shape. -/
noncomputable def reshape : Option (Tensor ℝ) :=
  (g.tensor 0).bind fun x => (g.numbers .int32 1).bind fun target =>
    let shape := stretched x.shape.prod target
    if g.Declared 0 x ∧ 0 < x.shape.prod ∧ x.shape.prod < 2 ^ 31 ∧ 0 ∉ target ∧
        (target.filter fun d => d < 0).length ≤ 1 ∧ shape.prod = x.shape.prod then
      some (x.reshape shape)
    else none

open Classical in
/-- The axes in the order of the second input. -/
noncomputable def transpose : Option (Tensor ℝ) :=
  (g.tensor 0).bind fun x => (g.vector 1).bind fun order =>
    if (g.operand 1).dimensions = [order.length] ∧ order ≠ [] ∧ (∀ a ∈ order, 0 ≤ a) ∧
        IsOrder (order.map Int.toNat) x.shape.length then
      some (x.transpose (order.map Int.toNat))
    else none

open Classical in
/-- Without some axes of size one. -/
noncomputable def squeeze : Option (Tensor ℝ) :=
  (g.tensor 0).bind fun x => (g.vector 1).bind fun axes =>
    let positions := axes.map (normalAxis x.shape.length)
    if g.Given 1 ∧ axes ≠ [] ∧ InRank x.shape.length axes ∧
        ∀ a ∈ positions, x.shape.getD a 0 = 1 then
      some (x.reshape (Tensor.dropAxes positions x.shape))
    else none

open Classical in
/-- With one more axis of size one. -/
noncomputable def expandDims : Option (Tensor ℝ) :=
  (g.tensor 0).bind fun x => (g.number .int32 1).bind fun axis =>
    if InRank (x.shape.length + 1) [axis] ∧ int32Range.Contains axis then
      some (x.reshape (x.shape.insertIdx (normalAxis (x.shape.length + 1) axis) 1))
    else none

/-! ### Selecting, joining and splitting -/

open Classical in
/-- The entries of `x` at some positions of an axis. -/
noncomputable def chosen (x positions : Tensor ℝ) (axis : Int) : Option (Tensor ℝ) :=
  if InRank x.shape.length [axis] ∧ int32Range.Contains axis ∧
      Positions (x.shape.getD (normalAxis x.shape.length axis) 0) positions then
    some (x.choose (normalAxis x.shape.length axis) positions.shape fun i => ⌊positions.get i⌋)
  else none

noncomputable def gather : Option (Tensor ℝ) :=
  (g.tensor 0).bind fun x => (g.number .int32 1).bind fun axis => (g.tensor 2).bind fun positions =>
    chosen x positions axis

noncomputable def embeddingLookup : Option (Tensor ℝ) :=
  (g.tensor 0).bind fun positions => (g.tensor 1).bind fun x => chosen x positions 0

open Classical in
/-- The inputs but the last one behind each other. -/
noncomputable def concatenation : Option (Tensor ℝ) :=
  ((List.range (g.count - 1)).mapM g.tensor).bind fun xs =>
    (g.number .uint32 (g.count - 1)).bind fun axis =>
      if 0 ≤ axis ∧ Joinable axis.toNat (xs.map (·.shape)) then
        some (Tensor.concat axis.toNat xs)
      else none

open Classical in
/-- What is stored, in parts of one size. -/
noncomputable def split (count : Nat) : Option (List (Tensor ℝ)) :=
  (g.stored 0).bind fun q => (g.number .int32 1).bind fun axis =>
    (g.number .uint32 2).bind fun parts => (splitElement (g.operand 0).type).bind fun type =>
      let along := normalAxis q.shape.length axis
      let size := q.shape.getD along 0 / count
      if parts = count ∧ InRank q.shape.length [axis] ∧ q.shape.getD along 0 = count * size ∧
          int32Range.Contains axis ∧ ∀ index, Inside q.shape index → type.Holds (q.get index) then
        some ((List.range count).map fun k => q.slice along (k * size) size)
      else none

/-! ### Padding -/

open Classical in
/-- Cells of a value around a tensor, as many as the pairs of the second input
say. -/
noncomputable def padded (x : Tensor ℝ) (v : ℝ) : Option (Tensor ℝ) :=
  (g.numbers .int32 1).bind fun paddings =>
    if paddings.length = 2 * x.shape.length ∧ ∀ a ∈ paddings, 0 ≤ a then
      some (x.pad ((splitPairs paddings).1.map Int.toNat) ((splitPairs paddings).2.map Int.toNat) v)
    else none

noncomputable def pad : Option (Tensor ℝ) := (g.tensor 0).bind fun x => g.padded x 0

open Classical in
/-- The value to pad with, a number of the type of the input. -/
noncomputable def padValue : Option ℝ :=
  match (g.operand 0).type with
  | .tensorFloat32 => g.real .float32 2
  | .tensorFloat16 => g.real .float16 2
  | .tensorQuant8Asymm | .tensorQuant8AsymmSigned =>
      (g.number .int32 2).bind fun v => (g.operand 0).affine.bind fun a =>
        if int32Range.Contains v then some ((v - a.zeroPoint) * a.scale) else none
  | _ => none

noncomputable def padV2 : Option (Tensor ℝ) :=
  (g.tensor 0).bind fun x => g.padValue.bind fun v => g.padded x v

/-! ### Blocks and channels -/

/-- The layout: the flag is there where the operation has so many inputs. -/
noncomputable def layout (count k : Nat) : Option Bool :=
  if g.count = count then (g.number .uint8 k).map fun v => decide (v ≠ 0) else some false

open Classical in
/-- Cells of square blocks become channels. -/
noncomputable def spaceToDepth : Option (Tensor ℝ) :=
  (g.tensor 0).bind fun x => (g.number .uint32 1).bind fun block => (g.layout 3 2).bind fun nchw =>
    let b := block.toNat
    let n := batches x.shape
    let h := rows nchw x.shape / b
    let w := columns nchw x.shape / b
    let c := channels nchw x.shape
    if 0 < b ∧ x.shape = arrange nchw n (h * b) (w * b) c then
      some (arranged nchw n h w (b * b * c) fun m i j k =>
        x.get (arrange nchw m (i * b + k / c / b) (j * b + k / c % b) (k % c)))
    else none

open Classical in
/-- Channels become cells of square blocks. -/
noncomputable def depthToSpace : Option (Tensor ℝ) :=
  (g.tensor 0).bind fun x => (g.number .uint32 1).bind fun block => (g.layout 3 2).bind fun nchw =>
    let b := block.toNat
    let n := batches x.shape
    let h := rows nchw x.shape
    let w := columns nchw x.shape
    let c := channels nchw x.shape / (b * b)
    if 0 < b ∧ x.shape = arrange nchw n h w (b * b * c) then
      some (arranged nchw n (h * b) (w * b) c fun m i j k =>
        x.get (arrange nchw m (i / b) (j / b) ((i % b * b + j % b) * c + k)))
    else none

open Classical in
/-- The entries of an axis, dealt out in groups. -/
noncomputable def channelShuffle : Option (Tensor ℝ) :=
  (g.tensor 0).bind fun x => (g.number .int32 1).bind fun groups =>
    (g.number .int32 2).bind fun axis =>
      let along := normalAxis x.shape.length axis
      if g.Declared 0 x ∧ x.shape.length ≤ 4 ∧ InRank x.shape.length [axis] ∧ 0 < groups ∧
          groups.toNat ∣ x.shape.getD along 0 then
        some (x.shuffle along groups.toNat)
      else none

end Arguments

end NnHal
