import NnHal.Denotations
import NnHal.Quantization

/-!
# Elements and their types

Where the storage of a number matters, an entry of a tensor is a number with
its element type.  Floating-point elements are exact; integer elements lie in
the range of their type, and arithmetic on them wraps.  What `Convert` makes of
a number the new type does not represent is left open, except that a conversion
to `i32` saturates.
-/

namespace NnHal

open Command Tensors Quantization

/-- A number and the type it is stored in. -/
structure Element where
  type : ElementType
  value : Rat
  deriving DecidableEq

instance : Zero Element := ⟨⟨.undefined, 0⟩⟩

/-- The integers an element type represents. -/
def ElementType.range : ElementType → Option IntRange
  | .i8 => some ⟨-128, 127, by decide⟩
  | .i16 => some ⟨-32768, 32767, by decide⟩
  | .i32 => some int32Range
  | .i64 => some ⟨-2 ^ 63, 2 ^ 63 - 1, by decide⟩
  | .u8 => some ⟨0, 255, by decide⟩
  | .u16 => some ⟨0, 65535, by decide⟩
  | .u32 => some ⟨0, 2 ^ 32 - 1, by decide⟩
  | .undefined | .boolean | .f16 | .f32 => none

/-- The number of an expression the code hands to ngraph, computed exactly. -/
def Scalar.value : Scalar → Rat
  | .int v => v
  | .float32 bits => FloatFormat.binary32.value bits
  | .float16 bits => FloatFormat.binary16.value bits
  | .decimal mantissa exponent => mantissa * 10 ^ exponent
  | .toFloat a => a.value
  | .toInt a => truncate a.value
  | .neg a => -a.value
  | .mul a b => a.value * b.value
  | .div a b => a.value / b.value

/-- The type represents the number. -/
def ElementType.Represents (type : ElementType) (v : Rat) : Prop :=
  match type.range with
  | some range => ∃ n : Int, range.Contains n ∧ v = n
  | none => True

/-- What arithmetic leaves of a number. -/
def ElementType.wrap (type : ElementType) (v : Rat) : Rat :=
  match type.range with
  | some range => range.wrap ⌊v⌋
  | none => v

/-- An operation on two elements of one type. -/
def Element.arith (op : Rat → Rat → Rat) (a b : Element) : Element :=
  ⟨a.type, a.type.wrap (op a.value b.value)⟩

/-- The entries have the type. -/
def Typed (type : ElementType) (x : Tensor Element) : Prop :=
  ∀ index, Inside x.shape index → (x.get index).type = type

/-- Numbers in place of the entries, of one type. -/
def retyped (type : ElementType) (f : Rat → Rat) (x : Tensor Element) : Tensor Element :=
  x.map fun e => ⟨type, f e.value⟩

/-- What `Convert` makes of a number. -/
structure Conversion where
  apply : ElementType → Rat → Rat
  float : ∀ type v, type = .f32 ∨ type = .f16 → apply type v = v
  represented : ∀ type range, ElementType.range type = some range → ∀ n : Int,
    range.Contains n → apply type n = n
  lands : ∀ type range, ElementType.range type = some range → ∀ v, ∃ n : Int,
    range.Contains n ∧ apply type v = n
  int32 : ∀ v, apply .i32 v = int32Range.clamp (truncate v)

/-- What the operations around a quantized operand do to elements. -/
structure Meaning.Computes (M : Meaning Element) (conv : Conversion) : Prop where
  constant : ∀ type shape (values : List Scalar), values.length = shape.prod →
    (∀ v ∈ values, type.Represents v.value) →
    M (.constant type shape values) [] 0 = Tensor.ofFn shape fun index =>
      ⟨type, (values.getD (flat shape index).toNat (.int 0)).value⟩
  convert : ∀ type x, M (.convert type) [x] 0 = retyped type (conv.apply type) x
  add : ∀ type x y, Typed type x → Typed type y →
    M .add [x, y] 0 = Tensor.broadcast (Element.arith (· + ·)) x y
  subtract : ∀ type x y, Typed type x → Typed type y →
    M .subtract [x, y] 0 = Tensor.broadcast (Element.arith (· - ·)) x y
  multiply : ∀ type x y, Typed type x → Typed type y →
    M .multiply [x, y] 0 = Tensor.broadcast (Element.arith (· * ·)) x y
  divide : ∀ x y, Typed .f32 x → Typed .f32 y →
    M .divide [x, y] 0 = Tensor.broadcast (Element.arith (· / ·)) x y
  round : ∀ x, Typed .f32 x →
    M .roundHalfToEven [x] 0 = retyped .f32 (fun v => roundHalfEven v) x
  clamp : ∀ type (low high : Int) x, Typed type x →
    M (.clamp (.int low) (.int high)) [x] 0 = retyped type (fun v => min (max v low) high) x

/-- ngraph's types are those of the tensors. -/
def Ngraph.Types (ng : Ngraph) (M : Meaning Element) : Prop :=
  ∀ node, Typed (ng.getElementType node) (node.denote M 0)

/-! ## Typed tensors -/

section Tensors

variable {type : ElementType} {x y : Tensor Element}

theorem typed_ofFn (shape : List Nat) (f : List Int → Rat) :
    Typed type (Tensor.ofFn shape fun index => ⟨type, f index⟩) := by
  intro index hin
  have hin' : Inside shape index := hin
  rw [Tensor.get_ofFn hin']

theorem typed_map {f : Element → Element} (h : ∀ e, (f e).type = type) : Typed type (x.map f) := by
  intro index hin
  have hin' : Inside x.shape index := hin
  rw [Tensor.get_map hin']
  exact h _

@[simp]
theorem shape_retyped (f : Rat → Rat) (x : Tensor Element) :
    (retyped type f x).shape = x.shape := rfl

theorem get_retyped {f : Rat → Rat} {index : List Int} (h : Inside x.shape index) :
    (retyped type f x).get index = ⟨type, f (x.get index).value⟩ := Tensor.get_map h

theorem typed_retyped (f : Rat → Rat) : Typed type (retyped type f x) := typed_map fun _ => rfl

theorem retyped_retyped {type' : ElementType} (f g : Rat → Rat) (x : Tensor Element) :
    retyped type g (retyped type' f x) = retyped type (fun v => g (f v)) x :=
  Tensor.map_map _ _ x

theorem Typed.retyped_id (h : Typed type x) : retyped type (fun v => v) x = x := by
  have hentry : ∀ index, Inside x.shape index →
      (⟨type, (x.get index).value⟩ : Element) = x.get index := by
    intro index hin
    rw [← h index hin]
  exact (Tensor.map_congr hentry).trans x.map_id

/-- A tensor without axes and a number for its entry. -/
def scalarTensor (type : ElementType) (v : Rat) : Tensor Element :=
  Tensor.ofFn [] fun _ => ⟨type, v⟩

theorem typed_scalarTensor (v : Rat) : Typed type (scalarTensor type v) := typed_ofFn [] fun _ => v

/-- An operation with the same number on the right of every entry. -/
theorem broadcast_retyped_scalar (op : Rat → Rat → Rat) (f : Rat → Rat) (v : Rat) :
    Tensor.broadcast (Element.arith op) (retyped type f x) (scalarTensor type v) =
      retyped type (fun u => type.wrap (op (f u) v)) x := by
  have hright : (scalarTensor type v).shape = [] := rfl
  have hget : (scalarTensor type v).get [] = ⟨type, v⟩ := Tensor.get_ofFn inside_nil
  rw [Tensor.broadcast_scalar hright, hget]
  exact Tensor.map_map _ _ x

theorem wrap_integer {range : IntRange} (h : type.range = some range) (n : Int) :
    type.wrap (n : Rat) = range.wrap n := by
  unfold ElementType.wrap
  rw [h]
  simp only [Int.floor_intCast]

end Tensors

/-! ## Constants -/

section Constants

variable {M : Meaning Element} {conv : Conversion}

theorem Meaning.Computes.scalar (hM : M.Computes conv) {type : ElementType} {v : Scalar}
    (h : type.Represents v.value) :
    (Node.mk (.constant type [] [v]) []).denote M 0 = scalarTensor type v.value := by
  have hall : ∀ u ∈ [v], type.Represents u.value := by
    intro u hu
    rw [List.mem_singleton.mp hu]
    exact h
  have hconstant := hM.constant type [] [v] rfl hall
  rw [Node.denote, Node.denoteAll, hconstant]
  rfl

theorem represents_float {type : ElementType} (h : type.range = none) (v : Rat) :
    type.Represents v := by
  unfold ElementType.Represents
  rw [h]
  trivial

theorem represents_integer {type : ElementType} {range : IntRange} (h : type.range = some range)
    {n : Int} (hn : range.Contains n) : type.Represents n := by
  unfold ElementType.Represents
  rw [h]
  exact ⟨n, hn, rfl⟩

end Constants

/-! ## A meaning that computes -/

/-- Conversions that saturate. -/
def Conversion.saturating : Conversion where
  apply type v :=
    match type.range with
    | some range => range.clamp (truncate v)
    | none => v
  float type v h := by rcases h with rfl | rfl <;> rfl
  represented type range h n hn := by
    simp only [h, truncate_intCast, IntRange.clamp_of_contains hn]
  lands type range h v := by
    simp only [h]
    exact ⟨_, range.contains_clamp _, rfl⟩
  int32 _ := rfl

/-- The type of what an operation gives: of a constant or a conversion its own, of
any other operation that of its first argument. -/
def exactType : NodeOp → List (Tensor Element) → ElementType
  | .parameter _ type _, _ | .constant type _ _, _ | .convert type, _ => type
  | _, x :: _ => (x.get (x.shape.map fun _ => 0)).type
  | _, [] => .undefined

/-- The numbers an operation gives; parameters hold the given tensors. -/
def exactValues (inputs : Nat → Tensor Element) : Meaning Element
  | .parameter operand _ _, [], _ => inputs operand
  | .constant type shape values, [], _ =>
      Tensor.ofFn shape fun index =>
        ⟨type, (values.getD (flat shape index).toNat (.int 0)).value⟩
  | .convert type, [x], _ => retyped type (Conversion.saturating.apply type) x
  | .add, [x, y], _ => Tensor.broadcast (Element.arith (· + ·)) x y
  | .subtract, [x, y], _ => Tensor.broadcast (Element.arith (· - ·)) x y
  | .multiply, [x, y], _ => Tensor.broadcast (Element.arith (· * ·)) x y
  | .divide, [x, y], _ => Tensor.broadcast (Element.arith (· / ·)) x y
  | .roundHalfToEven, [x], _ => x.map fun e => ⟨e.type, roundHalfEven e.value⟩
  | .clamp low high, [x], _ =>
      x.map fun e => ⟨e.type, min (max e.value low.value) high.value⟩
  | .split numSplits, [x, axis], k =>
      let along := normalAxis x.shape.length ⌊(axis.get []).value⌋
      let size := x.shape.getD along 0 / numSplits
      x.slice along (k * size) size
  | _, _, _ => default

/-- Every operation gives numbers of one type. -/
def exact (inputs : Nat → Tensor Element) : Meaning Element := fun op args index =>
  let x := exactValues inputs op args index
  Tensor.ofFn x.shape fun i => ⟨exactType op args, (x.get i).value⟩

/-- ngraph with the shapes and types of `exact`, refusing nothing. -/
def Ngraph.exact (inputs : Nat → Tensor Element) : Ngraph :=
  { Ngraph.permissive with
    getShape := fun node => (node.denote (NnHal.exact inputs) 0).shape
    getElementType := fun node =>
      match node with
      | .mk op args => exactType op (Node.denoteAll (NnHal.exact inputs) args) }

section Exact

variable {inputs : Nat → Tensor Element}

theorem Ngraph.exact_types : (Ngraph.exact inputs).Types (NnHal.exact inputs) := by
  intro node
  rcases node with ⟨op, args⟩
  rw [Node.denote]
  exact typed_ofFn _ _

/-- A tensor of one type keeps it. -/
theorem exact_of_typed {op : NodeOp} {args : List (Tensor Element)} {index : Nat}
    (h : Typed (exactType op args) (exactValues inputs op args index)) :
    exact inputs op args index = exactValues inputs op args index := by
  have hshape : (exact inputs op args index).shape = (exactValues inputs op args index).shape := rfl
  apply Tensor.ext_inside hshape
  intro i hin
  have hin' : Inside (exactValues inputs op args index).shape i := hin
  have hget : (exact inputs op args index).get i = _ := Tensor.get_ofFn hin'
  rw [hget, ← h i hin']

/-- Where the result has an entry, so has the first argument, and its type is the
result's. -/
theorem typed_first {type : ElementType} {x y : Tensor Element} (hx : Typed type x)
    (hy : Typed type y) (hempty : 0 ∈ x.shape → 0 ∈ y.shape) :
    Typed (x.get (x.shape.map fun _ => 0)).type y := by
  intro index hin
  have hzero : 0 ∉ x.shape := fun hmem => hin.zero_notMem (hempty hmem)
  rw [hx _ (inside_zeros hzero)]
  exact hy index hin

theorem typed_broadcast {type : ElementType} {op : Rat → Rat → Rat} {x y : Tensor Element}
    (hx : Typed type x) : Typed type (Tensor.broadcast (Element.arith op) x y) := by
  intro index hin
  rw [Tensor.get_broadcast hin]
  exact hx _ (Tensor.inside_alignIndex hin)

/-- Numbers in place of the entries of a typed tensor. -/
theorem Typed.map_eq {type : ElementType} {x : Tensor Element} (hx : Typed type x)
    (f : Rat → Rat) : (x.map fun e => ⟨e.type, f e.value⟩) = retyped type f x :=
  Tensor.map_congr fun index hin => by rw [hx index hin]

theorem exact_arith {type : ElementType} {op : NodeOp} {f : Rat → Rat → Rat} {x y : Tensor Element}
    (hx : Typed type x) (htype : exactType op [x, y] = (x.get (x.shape.map fun _ => 0)).type)
    (hvalues : exactValues inputs op [x, y] 0 = Tensor.broadcast (Element.arith f) x y) :
    exact inputs op [x, y] 0 = Tensor.broadcast (Element.arith f) x y := by
  rw [← hvalues]
  apply exact_of_typed
  rw [hvalues, htype]
  exact typed_first hx (typed_broadcast hx) Tensor.zero_mem_broadcastShape

theorem exact_entries {type : ElementType} {op : NodeOp} {f : Rat → Rat} {x : Tensor Element}
    (hx : Typed type x) (htype : exactType op [x] = (x.get (x.shape.map fun _ => 0)).type)
    (hvalues : exactValues inputs op [x] 0 = x.map fun e => ⟨e.type, f e.value⟩) :
    exact inputs op [x] 0 = retyped type f x := by
  rw [← hx.map_eq, ← hvalues]
  apply exact_of_typed
  rw [hvalues, htype, hx.map_eq]
  exact typed_first hx (typed_retyped f) fun h => h

theorem exact_computes : (exact inputs).Computes .saturating where
  constant _ shape _ _ _ := exact_of_typed (typed_ofFn shape _)
  convert _ _ := exact_of_typed (typed_retyped _)
  add _ _ _ hx _ := exact_arith hx rfl rfl
  subtract _ _ _ hx _ := exact_arith hx rfl rfl
  multiply _ _ _ hx _ := exact_arith hx rfl rfl
  divide _ _ hx _ := exact_arith hx rfl rfl
  round _ hx := exact_entries hx rfl rfl
  clamp _ _ _ _ hx := exact_entries hx rfl rfl

theorem typed_slice {type : ElementType} {x : Tensor Element} {axis start size : Nat}
    (hx : Typed type x) (haxis : axis < x.shape.length)
    (hbound : start + size ≤ x.shape.getD axis 0) : Typed type (x.slice axis start size) := by
  intro index hin
  have hin' : Inside (x.shape.set axis size) index := hin
  rw [Tensor.get_slice hin']
  exact hx _ (Tensor.inside_of_slice haxis hbound hin')

theorem exact_splits : (exact inputs).Splits fun x => ∃ type, Typed type x := by
  intro x axis numSplits size k hproper hlow hhigh hsize hk
  rcases hproper with ⟨type, hx⟩
  have haxis := normalAxis_lt hlow hhigh
  have hpositive : 0 < numSplits := by omega
  have hscalar : ((exact inputs (.constant .i32 [] [.int axis]) [] 0).get []).value = axis := by
    have hconstant : ((exactValues inputs (.constant .i32 [] [.int axis]) [] 0).get []).value =
        axis := congrArg Element.value (Tensor.get_ofFn inside_nil)
    have hentry : (exact inputs (.constant .i32 [] [.int axis]) [] 0).get [] = _ :=
      Tensor.get_ofFn inside_nil
    rw [hentry, hconstant]
  have hvalues : exactValues inputs (.split numSplits)
      [x, exact inputs (.constant .i32 [] [.int axis]) [] 0] k =
      x.slice (normalAxis x.shape.length axis) (k * size) size := by
    simp only [exactValues]
    rw [hscalar, Int.floor_intCast, hsize, Nat.mul_div_cancel_left size hpositive]
  have hbound : k * size + size ≤ x.shape.getD (normalAxis x.shape.length axis) 0 := by
    rw [hsize, ← Nat.succ_mul]
    exact Nat.mul_le_mul_right size hk
  rw [← hvalues]
  apply exact_of_typed
  rw [hvalues]
  apply typed_first hx (typed_slice hx haxis hbound)
  intro hzero
  -- a part of an empty tensor is empty
  obtain ⟨j, hj, hget⟩ := List.getElem_of_mem hzero
  rw [Tensor.shape_slice, List.mem_iff_getElem]
  refine ⟨j, by rw [List.length_set]; exact hj, ?_⟩
  rw [List.getElem_set]
  split
  · next heq =>
    subst heq
    rw [List.getD_eq_getElem _ _ hj, hget] at hsize
    exact (Nat.mul_eq_zero.mp hsize.symm).resolve_left hpositive.ne'
  · exact hget

end Exact

end NnHal
