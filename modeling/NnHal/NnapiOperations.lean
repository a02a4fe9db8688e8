import Mathlib.Analysis.SpecialFunctions.Log.Basic
import Mathlib.Analysis.SpecialFunctions.Pow.Real
import NnHal.AxisReductions
import NnHal.Environments
import NnHal.NnapiConvolutions
import NnHal.QuantizedNodes

/-!
# What NNAPI's operations compute

The purpose of a model, in terms of real numbers: the tensor an operand stores,
the numbers that a quantized tensor stands for, and what each operation makes of
its arguments.  An operation whose arguments NNAPI leaves undefined has no
result, and a model in which one has none is not given a meaning.
-/

namespace NnHal

open Tensors Quantization StraightLine

/-! ## Numbers -/

/-- The number a scalar of the code stands for. -/
noncomputable def Scalar.real (s : Scalar) : ℝ := (s.value : ℝ)

/-- No infinity and no NaN. -/
def Scalar.Finite : Scalar → Prop
  | .int _ | .decimal _ _ => True
  | .float32 bits => FloatFormat.binary32.Finite bits
  | .float16 bits => FloatFormat.binary16.Finite bits
  | .toFloat a | .toInt a | .neg a => a.Finite
  | .mul a b => a.Finite ∧ b.Finite
  | .div a b => a.Finite ∧ b.Finite ∧ b.value ≠ 0

/-- The element type has the number. -/
def ElementType.Holds (type : ElementType) (v : ℝ) : Prop :=
  match type with
  | .undefined => False
  | .boolean => v = 0 ∨ v = 1
  | .f16 | .f32 => True
  | _ => ∃ range, type.range = some range ∧ ∃ n : Int, range.Contains n ∧ v = n

/-- The entries of a constant, in row-major order. -/
noncomputable def constantTensor (shape : List Nat) (scalars : List Scalar) : Tensor ℝ :=
  Tensor.ofFn shape fun index => (scalars.getD (flat shape index).toNat (.int 0)).real

/-- One for what holds, zero for what does not. -/
noncomputable def truth (p : Prop) : ℝ :=
  open Classical in if p then 1 else 0

/-! ## Functions of entries -/

/-- A function of one number, and where it is defined. -/
structure Entrywise where
  domain : ℝ → Prop
  apply : ℝ → ℝ

/-- A function of two numbers, and where it is defined. -/
structure Pairwise where
  domain : ℝ → ℝ → Prop
  apply : ℝ → ℝ → ℝ

namespace Entrywise

def total (f : ℝ → ℝ) : Entrywise := ⟨fun _ => True, f⟩

noncomputable def abs : Entrywise := total fun v => |v|
noncomputable def exp : Entrywise := total Real.exp
noncomputable def floor : Entrywise := total fun v => ⌊v⌋
noncomputable def hardSwish : Entrywise := total fun v =>
  v * min (max (v + (3 : Int)) 0) (6 : Int) / (6 : Int)
noncomputable def log : Entrywise := ⟨fun v => 0 < v, Real.log⟩
noncomputable def logistic : Entrywise := total fun v => 1 / (1 + Real.exp (-v))
def logicalNot : Entrywise := ⟨fun v => v = 0 ∨ v = 1, fun v => 1 - v⟩
def neg : Entrywise := total fun v => -v
noncomputable def relu : Entrywise := total fun v => max v 0
noncomputable def relu1 : Entrywise := total fun v => min (max v (-1)) 1
noncomputable def relu6 : Entrywise := total fun v => min (max v 0) (6 : Int)
noncomputable def rsqrt : Entrywise := ⟨fun v => 0 < v, fun v => 1 / √v⟩
noncomputable def sin : Entrywise := total Real.sin
noncomputable def sqrt : Entrywise := ⟨fun v => 0 ≤ v, Real.sqrt⟩
noncomputable def tanh : Entrywise := total Real.tanh

/-- The function is defined at every entry. -/
def DefinedOn (f : Entrywise) (x : Tensor ℝ) : Prop :=
  ∀ index, Inside x.shape index → f.domain (x.get index)

end Entrywise

namespace Pairwise

def total (f : ℝ → ℝ → ℝ) : Pairwise := ⟨fun _ _ => True, f⟩

/-- The two values of a boolean. -/
def OnBooleans (u v : ℝ) : Prop := (u = 0 ∨ u = 1) ∧ (v = 0 ∨ v = 1)

noncomputable def add : Pairwise := total (· + ·)
noncomputable def sub : Pairwise := total (· - ·)
noncomputable def mul : Pairwise := total (· * ·)
noncomputable def div : Pairwise := ⟨fun _ v => v ≠ 0, (· / ·)⟩
noncomputable def equal : Pairwise := total fun u v => truth (u = v)
noncomputable def greater : Pairwise := total fun u v => truth (v < u)
noncomputable def greaterEqual : Pairwise := total fun u v => truth (v ≤ u)
noncomputable def less : Pairwise := total fun u v => truth (u < v)
noncomputable def lessEqual : Pairwise := total fun u v => truth (u ≤ v)
noncomputable def notEqual : Pairwise := total fun u v => truth (u ≠ v)
noncomputable def logicalAnd : Pairwise := ⟨OnBooleans, min⟩
noncomputable def logicalOr : Pairwise := ⟨OnBooleans, max⟩
noncomputable def maximum : Pairwise := total max
noncomputable def minimum : Pairwise := total min
noncomputable def pow : Pairwise := ⟨fun u _ => 0 < u, fun u v => u ^ v⟩

/-- The shapes broadcast, and the function is defined at every pair of entries. -/
def DefinedOn (f : Pairwise) (x y : Tensor ℝ) : Prop :=
  Broadcastable x.shape y.shape ∧
    ∀ index, Inside (Tensor.broadcastShape x.shape y.shape) index →
      f.domain (x.get (Tensor.alignIndex x.shape index)) (y.get (Tensor.alignIndex y.shape index))

end Pairwise

/-! ## Functions of lines -/

/-- The largest of the entries. -/
noncomputable def largest (l : List ℝ) : ℝ := l.foldr max (l.headD 0)

/-- The smallest of the entries. -/
noncomputable def smallest (l : List ℝ) : ℝ := l.foldr min (l.headD 0)

noncomputable def average (l : List ℝ) : ℝ := l.sum / l.length

/-- A function of a line, and the entries it is defined for. -/
structure Reduction where
  domain : ℝ → Prop
  apply : List ℝ → ℝ

namespace Reduction

def total (f : List ℝ → ℝ) : Reduction := ⟨fun _ => True, f⟩

noncomputable def sum : Reduction := total List.sum
noncomputable def prod : Reduction := total List.prod
noncomputable def max : Reduction := total largest
noncomputable def min : Reduction := total smallest
noncomputable def mean : Reduction := total average
noncomputable def all : Reduction := ⟨fun v => v = 0 ∨ v = 1, smallest⟩
noncomputable def any : Reduction := ⟨fun v => v = 0 ∨ v = 1, largest⟩

/-- No line is empty, every entry is one the function is defined for, and the axes
are different ones of the tensor. -/
def DefinedOn (f : Reduction) (x : Tensor ℝ) (axes : List Int) : Prop :=
  0 ∉ x.shape ∧ (∀ index, Inside x.shape index → f.domain (x.get index)) ∧
    (∀ a ∈ axes, -x.shape.length ≤ a ∧ a < x.shape.length) ∧
      (axes.map (normalAxis x.shape.length)).Nodup

end Reduction

/-- The numbers of a tensor of rank one as integers. -/
noncomputable def integers (t : Tensor ℝ) : List Int :=
  (List.range (t.shape.getD 0 0)).map fun (k : Nat) => ⌊t.get [(k : Int)]⌋

/-- The exponentials of a line, divided by their sum. -/
noncomputable def softmaxLines (beta : ℝ) (axis : Nat) (x : Tensor ℝ) : Tensor ℝ :=
  Tensor.ofFn x.shape fun index =>
    Real.exp (beta * x.get index) / ((x.line axis index).map fun v => Real.exp (beta * v)).sum

/-- The sum of the squares of a line. -/
noncomputable def squaredLength (axis : Nat) (x : Tensor ℝ) (index : List Int) : ℝ :=
  ((x.line axis index).map fun v => v * v).sum

/-- Every line divided by its Euclidean length. -/
noncomputable def unitLines (axis : Nat) (x : Tensor ℝ) : Tensor ℝ :=
  Tensor.ofFn x.shape fun index => x.get index / √(squaredLength axis x index)

/-! ## What is stored -/

open Classical in
/-- How the numbers of a quantized operand are stored, where its scale and its
zero point are what NNAPI asks for. -/
noncomputable def Operand.affine (o : Operand) : Option (Affine ℝ) :=
  o.type.affineRange.bind fun range =>
    if h : (Scalar.float32 o.scale).Finite ∧ 0 < (Scalar.float32 o.scale).real ∧
        range.Contains o.zeroPoint ∧ (o.type.symmetric = true → o.zeroPoint = 0) then
      some ⟨(Scalar.float32 o.scale).real, o.zeroPoint, range, h.2.1, h.2.2.1⟩
    else none

/-- The numbers a stored tensor stands for. -/
noncomputable def Operand.load (o : Operand) (q : Tensor ℝ) : Option (Tensor ℝ) :=
  if o.type.isQuantized then
    o.affine.map fun a => q.map fun v => (v - a.zeroPoint) * a.scale
  else some q

/-- The quotient by the scale, and its sum with the zero point, are 32-bit
numbers. -/
def Storable (a : Affine ℝ) (v : ℝ) : Prop :=
  int32Range.Contains (roundHalfEven (v / a.scale)) ∧
    int32Range.Contains (roundHalfEven (v / a.scale) + a.zeroPoint)

open Classical in
/-- How the numbers are stored. -/
noncomputable def Operand.store (o : Operand) (y : Tensor ℝ) : Option (Tensor ℝ) :=
  if o.type.isQuantized then
    o.affine.bind fun a =>
      if ∀ index, Inside y.shape index → Storable a (y.get index) then
        some (y.map fun v => (a.quantize v : ℝ))
      else none
  else some y

open Classical in
/-- The tensor a constant operand stores. -/
noncomputable def NnapiModelInfo.constantValue (info : NnapiModelInfo) (i : Nat) :
    Option (Tensor ℝ) :=
  (info.getOperandType i).constElement.bind fun c =>
    let scalars := (info.vectorValue c.2 i).map c.2.scalar
    if scalars.length = (info.getOperand i).dimensions.prod ∧
        ∀ s ∈ scalars, s.Finite ∧ c.1.Holds s.real then
      some (constantTensor (info.getOperand i).dimensions scalars)
    else none

/-- The tensor an operand stores, where the other ones have the values of an
environment. -/
noncomputable def NnapiModelInfo.storedValue (info : NnapiModelInfo)
    (env : Environment (Tensor ℝ)) (i : Nat) : Option (Tensor ℝ) :=
  if info.isOperandLifeTimeConst i then info.constantValue i else env i

/-! ## Arguments -/

/-- What an operation is given: the operands at its input positions, the tensors
they store, and the constant numbers. -/
structure Arguments where
  count : Nat
  operand : Nat → Operand
  stored : Nat → Option (Tensor ℝ)
  number : CType → Nat → Option Int
  numbers : CType → Nat → Option (List Int)

/-- The arguments of an operation, where the operands that are no constants have the
values of an environment. -/
noncomputable def NnapiModelInfo.arguments (info : NnapiModelInfo) (operation : Operation)
    (env : Environment (Tensor ℝ)) : Arguments where
  count := operation.inputs.length
  operand k := info.getOperand (operation.inputs.getD k 0)
  stored k := operation.inputs[k]?.bind (info.storedValue env)
  number T k := operation.inputs[k]?.bind fun i =>
    if info.isOperandLifeTimeConst i then some (info.scalarValue T i) else none
  numbers T k := operation.inputs[k]?.bind fun i =>
    if info.isOperandLifeTimeConst i then some (info.vectorValue T i) else none

namespace Arguments

variable (g : Arguments)

/-- The numbers at an input position. -/
noncomputable def tensor (k : Nat) : Option (Tensor ℝ) :=
  (g.stored k).bind (g.operand k).load

/-- A real parameter. -/
noncomputable def real (T : CType) (k : Nat) : Option ℝ :=
  open Classical in
  (g.number T k).bind fun v => if (T.scalar v).Finite then some (T.scalar v).real else none

open Classical in
noncomputable def unary (f : Entrywise) : Option (Tensor ℝ) :=
  (g.tensor 0).bind fun x => if f.DefinedOn x then some (x.map f.apply) else none

open Classical in
noncomputable def binary (f : Pairwise) : Option (Tensor ℝ) :=
  (g.tensor 0).bind fun x => (g.tensor 1).bind fun y =>
    if f.DefinedOn x y then some (Tensor.broadcast f.apply x y) else none

/-- A binary operation with a fused activation. -/
noncomputable def activated (f : Pairwise) : Option (Tensor ℝ) :=
  (g.binary f).bind fun y => (g.number .int32 2).map fun code => y.map (fusedActivation code)

open Classical in
/-- The inverse of the root. -/
noncomputable def rsqrt : Option (Tensor ℝ) :=
  (g.tensor 0).bind fun x =>
    if x.shape ≠ [] ∧ Entrywise.rsqrt.DefinedOn x then some (x.map Entrywise.rsqrt.apply) else none

/-- The numbers of a quantized tensor. -/
noncomputable def dequantize : Option (Tensor ℝ) :=
  if (g.operand 0).type.isQuantized then g.tensor 0 else none

open Classical in
/-- The entries of one tensor where a third says so, those of the other
elsewhere. -/
noncomputable def select : Option (Tensor ℝ) :=
  (g.tensor 0).bind fun c => (g.tensor 1).bind fun x => (g.tensor 2).bind fun y =>
    if c.shape = x.shape ∧ y.shape = x.shape then
      some (Tensor.ofFn x.shape fun index =>
        if c.get index ≠ 0 then x.get index else y.get index)
    else none

/-! ### Lines -/

open Classical in
/-- The integers of a tensor of rank one. -/
noncomputable def vector (k : Nat) : Option (List Int) :=
  (g.tensor k).bind fun t =>
    if t = Tensor.ofList ((integers t).map fun (a : Int) => (a : ℝ)) then some (integers t)
    else none

open Classical in
/-- A reduction along the axes of the second input. -/
noncomputable def reduction (f : Reduction) (keepDims : Option Bool) : Option (Tensor ℝ) :=
  (g.tensor 0).bind fun x => (g.vector 1).bind fun axes => keepDims.bind fun keep =>
    if f.DefinedOn x axes then
      some (x.reduce f.apply keep (axes.map (normalAxis x.shape.length)))
    else none

/-- A reduction with a boolean for its third input. -/
noncomputable def reduced (f : Reduction) : Option (Tensor ℝ) :=
  g.reduction f ((g.number .uint8 2).map fun v => v ≠ 0)

/-- The mean, which keeps its axes where the third input is positive. -/
noncomputable def mean : Option (Tensor ℝ) :=
  g.reduction .mean ((g.number .int32 2).map fun v => v > 0)

/-- The scale of the exponents, of the type of the input. -/
noncomputable def beta : Option ℝ :=
  if (g.operand 0).type = .tensorFloat16 then g.real .float16 1 else g.real .float32 1

/-- An optional last input that names an axis; without it the last one. -/
def lastAxis (count k : Nat) : Option Int :=
  if g.count = count then g.number .int32 k else some (-1)

/-- The axis is one of the tensor, and no line is empty. -/
def HasAxis (x : Tensor ℝ) (axis : Int) : Prop :=
  0 ∉ x.shape ∧ -x.shape.length ≤ axis ∧ axis < x.shape.length

open Classical in
noncomputable def softmax : Option (Tensor ℝ) :=
  (g.tensor 0).bind fun x => g.beta.bind fun beta => (g.lastAxis 3 2).bind fun axis =>
    if HasAxis x axis then some (softmaxLines beta (normalAxis x.shape.length axis) x) else none

/-- The logarithm of the softmax. -/
noncomputable def logSoftmax : Option (Tensor ℝ) := g.softmax.map (·.map Real.log)

open Classical in
/-- Defined where no line is zero. -/
noncomputable def l2Normalization : Option (Tensor ℝ) :=
  (g.tensor 0).bind fun x => (g.lastAxis 2 1).bind fun axis =>
    if HasAxis x axis ∧ ∀ index, Inside x.shape index →
        0 < squaredLength (normalAxis x.shape.length axis) x index then
      some (unitLines (normalAxis x.shape.length axis) x)
    else none

end Arguments

end NnHal
