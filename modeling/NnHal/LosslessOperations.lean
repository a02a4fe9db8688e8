import NnHal.OperationOrders

/-!
# Operations that round nothing

Operations that move entries, or choose among them, make no numbers but those they
are given.  Where their quantized operands share a scale and a zero point, every
number has an integer already, so storing it loses nothing: a quantized model of
such operations computes exactly what the model computes over the real numbers.
-/

namespace NnHal

open Command Tensors Quantization StraightLine

/-! ## Operations that make no numbers -/

/-- The inputs an operation takes its numbers from, where it makes none but theirs
and zero. -/
def OperationType.selected (count : Nat) : OperationType → Option (List Nat)
  | .channelShuffle | .depthToSpace | .expandDims | .gather | .maxPool2d | .pad | .reduceMax
  | .reduceMin | .relu | .reshape | .spaceToDepth | .squeeze | .transpose => some [0]
  | .embeddingLookup => some [1]
  | .maximum | .minimum => some [0, 1]
  | .select => some [1, 2]
  | .concatenation => some (List.range (count - 1))
  | _ => none

/-- A pooling without a fused activation. -/
def Arguments.Unactivated (g : Arguments) : Prop :=
  ∀ explicit, g.poolSignature = some explicit → (g.poolParams explicit).activation = 0

section Selected

variable {P : ℝ → Prop} {g : Arguments} {y : Tensor ℝ}

/-- One of two entries. -/
theorem of_choice {w u v : ℝ} (h : w = u ∨ w = v) (hu : P u) (hv : P v) : P w := by
  rcases h with rfl | rfl
  · exact hu
  · exact hv

/-- Of two numbers chosen one after the other, one of the list remains. -/
theorem foldr_choice {f : ℝ → ℝ → ℝ} (hf : ∀ u v, f u v = u ∨ f u v = v) {l : List ℝ}
    (hzero : P 0) (h : ∀ v ∈ l, P v) : P (l.foldr f (l.headD 0)) := by
  have hfold : ∀ (l : List ℝ) (v : ℝ), P v → (∀ u ∈ l, P u) → P (l.foldr f v) := by
    intro l v hv hl
    induction l with
    | nil => exact hv
    | cons u l ih =>
        rw [List.foldr_cons]
        exact of_choice (hf u _) (hl u List.mem_cons_self)
          (ih fun w hw => hl w (List.mem_cons_of_mem _ hw))
  refine hfold l _ ?_ h
  cases l with
  | nil => exact hzero
  | cons u l => exact h u List.mem_cons_self

/-- What a list of options gives comes from the list. -/
theorem exists_of_mapM {α β : Type} {f : α → Option β} {as : List α} {bs : List β}
    (h : as.mapM f = some bs) {b : β} (hb : b ∈ bs) : ∃ a ∈ as, f a = some b := by
  induction as generalizing bs with
  | nil =>
      obtain rfl := Option.some.inj h
      cases hb
  | cons a as ih =>
      rw [List.mapM_cons] at h
      obtain ⟨b', hb', h⟩ := Option.bind_eq_some_iff.mp h
      obtain ⟨bs', hbs', h⟩ := Option.bind_eq_some_iff.mp h
      obtain rfl := Option.some.inj h
      rcases List.mem_cons.mp hb with rfl | hb
      · exact ⟨a, List.mem_cons_self, hb'⟩
      · obtain ⟨a', ha', hf⟩ := ih hbs' hb
        exact ⟨a', List.mem_cons_of_mem _ ha', hf⟩

/-- A tensor by its entries. -/
theorem every_arranged {nchw : Bool} {n h w c : Nat} {entry : Int → Int → Int → Int → ℝ}
    (hzero : P 0) (hentry : ∀ b i j k, P (entry b i j k)) :
    (arranged nchw n h w c entry).Every P := by
  apply Tensor.every_ofFn hzero
  intro index
  split
  · split <;> exact hentry _ _ _ _
  · exact hzero

/-- Entries that are selected. -/
theorem every_chosen {x positions : Tensor ℝ} {axis : Int} (hx : x.Every P)
    (h : Arguments.chosen x positions axis = some y) : y.Every P := by
  unfold Arguments.chosen at h
  split at h
  · obtain rfl := Option.some.inj h
    exact hx.choose _ _ _
  · cases h

/-- A reduction that selects among the entries of a line. -/
theorem every_reduction {f : Reduction} {keepDims : Option Bool}
    (hf : ∀ l, (∀ v ∈ l, P v) → P (f.apply l)) (hx : ∀ x, g.tensor 0 = some x → x.Every P)
    (h : g.reduction f keepDims = some y) : y.Every P := by
  unfold Arguments.reduction at h
  obtain ⟨x, hx', h⟩ := Option.bind_eq_some_iff.mp h
  obtain ⟨axes, -, h⟩ := Option.bind_eq_some_iff.mp h
  obtain ⟨keep, -, h⟩ := Option.bind_eq_some_iff.mp h
  split at h
  · obtain rfl := Option.some.inj h
    exact (hx x hx').reduce hf _ _
  · cases h

/-- An operation on pairs that selects one of them. -/
theorem every_binary {f : Pairwise} (hf : ∀ u v, P u → P v → P (f.apply u v))
    (hx : ∀ x, g.tensor 0 = some x → x.Every P) (hy : ∀ x, g.tensor 1 = some x → x.Every P)
    (h : g.binary f = some y) : y.Every P := by
  unfold Arguments.binary at h
  obtain ⟨x, hx', h⟩ := Option.bind_eq_some_iff.mp h
  obtain ⟨x', hy', h⟩ := Option.bind_eq_some_iff.mp h
  split at h
  · obtain rfl := Option.some.inj h
    exact (hx x hx').broadcast (hy x' hy') hf
  · cases h

/-- The largest entry of a window. -/
theorem every_pooling (hplain : g.Unactivated) (hx : ∀ x, g.tensor 0 = some x → x.Every P)
    (h : g.pooling largest = some y) : y.Every P := by
  unfold Arguments.pooling at h
  obtain ⟨x, hx', h⟩ := Option.bind_eq_some_iff.mp h
  obtain ⟨explicit, hexplicit, h⟩ := Option.bind_eq_some_iff.mp h
  have hevery := hx x hx'
  dsimp only at h
  split at h
  · obtain rfl := Option.some.inj h
    apply every_arranged hevery.zero
    intro b i j k
    rw [hplain explicit hexplicit]
    refine foldr_choice (P := P) max_choice hevery.zero fun v hv => ?_
    obtain ⟨p, -, hv⟩ := List.mem_flatMap.mp hv
    obtain ⟨q, -, rfl⟩ := List.mem_map.mp hv
    exact hevery _
  · cases h

/-- **Selection.**  Such an operation passes on what is true of the numbers it takes. -/
theorem result_every {type : OperationType} {ks : List Nat} (hzero : P 0)
    (hselected : type.selected g.count = some ks) (hplain : type = .maxPool2d → g.Unactivated)
    (hinputs : ∀ k ∈ ks, ∀ x, g.tensor k = some x → x.Every P) (h : g.result type = some y) :
    y.Every P := by
  cases type
  case channelShuffle =>
    obtain rfl := Option.some.inj hselected
    obtain ⟨x, hx, h⟩ := Option.bind_eq_some_iff.mp h
    obtain ⟨groups, -, h⟩ := Option.bind_eq_some_iff.mp h
    obtain ⟨axis, -, h⟩ := Option.bind_eq_some_iff.mp h
    obtain ⟨-, h⟩ := Option.ite_none_right_eq_some.mp h
    obtain rfl := Option.some.inj h
    exact (hinputs 0 List.mem_cons_self x hx).shuffle _ _
  case concatenation =>
    obtain rfl := Option.some.inj hselected
    obtain ⟨xs, hxs, h⟩ := Option.bind_eq_some_iff.mp h
    obtain ⟨axis, -, h⟩ := Option.bind_eq_some_iff.mp h
    obtain ⟨-, h⟩ := Option.ite_none_right_eq_some.mp h
    obtain rfl := Option.some.inj h
    refine Tensor.Every.concat hzero fun x hx => ?_
    obtain ⟨k, hk, hx⟩ := exists_of_mapM hxs hx
    exact hinputs k hk x hx
  case embeddingLookup =>
    obtain rfl := Option.some.inj hselected
    obtain ⟨positions, -, h⟩ := Option.bind_eq_some_iff.mp h
    obtain ⟨x, hx, h⟩ := Option.bind_eq_some_iff.mp h
    exact every_chosen (hinputs 1 List.mem_cons_self x hx) h
  case gather =>
    obtain rfl := Option.some.inj hselected
    obtain ⟨x, hx, h⟩ := Option.bind_eq_some_iff.mp h
    obtain ⟨axis, -, h⟩ := Option.bind_eq_some_iff.mp h
    obtain ⟨positions, -, h⟩ := Option.bind_eq_some_iff.mp h
    exact every_chosen (hinputs 0 List.mem_cons_self x hx) h
  case expandDims | reshape | squeeze =>
    obtain rfl := Option.some.inj hselected
    obtain ⟨x, hx, h⟩ := Option.bind_eq_some_iff.mp h
    obtain ⟨_, -, h⟩ := Option.bind_eq_some_iff.mp h
    obtain ⟨-, h⟩ := Option.ite_none_right_eq_some.mp h
    obtain rfl := Option.some.inj h
    exact (hinputs 0 List.mem_cons_self x hx).reshape _
  case depthToSpace | spaceToDepth =>
    obtain rfl := Option.some.inj hselected
    obtain ⟨x, hx, h⟩ := Option.bind_eq_some_iff.mp h
    obtain ⟨block, -, h⟩ := Option.bind_eq_some_iff.mp h
    obtain ⟨nchw, -, h⟩ := Option.bind_eq_some_iff.mp h
    obtain ⟨-, h⟩ := Option.ite_none_right_eq_some.mp h
    obtain rfl := Option.some.inj h
    exact every_arranged hzero fun _ _ _ _ => hinputs 0 List.mem_cons_self x hx _
  case transpose =>
    obtain rfl := Option.some.inj hselected
    obtain ⟨x, hx, h⟩ := Option.bind_eq_some_iff.mp h
    obtain ⟨order, -, h⟩ := Option.bind_eq_some_iff.mp h
    obtain ⟨-, h⟩ := Option.ite_none_right_eq_some.mp h
    obtain rfl := Option.some.inj h
    exact (hinputs 0 List.mem_cons_self x hx).transpose _
  case pad =>
    obtain rfl := Option.some.inj hselected
    obtain ⟨x, hx, h⟩ := Option.bind_eq_some_iff.mp h
    obtain ⟨paddings, -, h⟩ := Option.bind_eq_some_iff.mp h
    obtain ⟨-, h⟩ := Option.ite_none_right_eq_some.mp h
    obtain rfl := Option.some.inj h
    exact (hinputs 0 List.mem_cons_self x hx).pad _ _
  case select =>
    obtain rfl := Option.some.inj hselected
    obtain ⟨c, -, h⟩ := Option.bind_eq_some_iff.mp h
    obtain ⟨x, hx, h⟩ := Option.bind_eq_some_iff.mp h
    obtain ⟨x', hx', h⟩ := Option.bind_eq_some_iff.mp h
    obtain ⟨-, h⟩ := Option.ite_none_right_eq_some.mp h
    obtain rfl := Option.some.inj h
    apply Tensor.every_ofFn hzero
    intro index
    split
    · exact hinputs 1 List.mem_cons_self x hx index
    · exact hinputs 2 (List.mem_cons_of_mem _ List.mem_cons_self) x' hx' index
  case maxPool2d =>
    obtain rfl := Option.some.inj hselected
    exact every_pooling (hplain rfl) (hinputs 0 List.mem_cons_self) h
  case maximum =>
    obtain rfl := Option.some.inj hselected
    exact every_binary (fun u v => of_choice (max_choice u v)) (hinputs 0 List.mem_cons_self)
      (hinputs 1 (List.mem_cons_of_mem _ List.mem_cons_self)) h
  case minimum =>
    obtain rfl := Option.some.inj hselected
    exact every_binary (fun u v => of_choice (min_choice u v)) (hinputs 0 List.mem_cons_self)
      (hinputs 1 (List.mem_cons_of_mem _ List.mem_cons_self)) h
  case reduceMax =>
    obtain rfl := Option.some.inj hselected
    exact every_reduction (fun _ => foldr_choice max_choice hzero) (hinputs 0 List.mem_cons_self) h
  case reduceMin =>
    obtain rfl := Option.some.inj hselected
    exact every_reduction (fun _ => foldr_choice min_choice hzero) (hinputs 0 List.mem_cons_self) h
  case relu =>
    obtain rfl := Option.some.inj hselected
    obtain ⟨x, hx, h⟩ := Option.bind_eq_some_iff.mp h
    obtain ⟨-, h⟩ := Option.ite_none_right_eq_some.mp h
    obtain rfl := Option.some.inj h
    exact (hinputs 0 List.mem_cons_self x hx).map fun v hv => of_choice (max_choice v 0) hv hzero
  all_goals cases hselected

end Selected

/-! ## The model over the real numbers -/

/-- The operand, a tensor of floats where it is quantized and no constant. -/
def Operand.asFloat (o : Operand) : Operand :=
  if o.type.isQuantized = true ∧ o.lifetime.isConst = false then { o with type := .tensorFloat32 }
  else o

/-- The model with floats in place of what is computed in integers. -/
def NnapiModelInfo.asFloat (info : NnapiModelInfo) : NnapiModelInfo :=
  { info with mModel := { info.mModel with
      operands := info.mModel.operands.map Operand.asFloat } }

namespace Operand

variable (o : Operand)

@[simp] theorem asFloat_dimensions : o.asFloat.dimensions = o.dimensions := by
  unfold asFloat
  split <;> rfl

@[simp] theorem asFloat_lifetime : o.asFloat.lifetime = o.lifetime := by
  unfold asFloat
  split <;> rfl

@[simp] theorem asFloat_location : o.asFloat.location = o.location := by
  unfold asFloat
  split <;> rfl

variable {o}

/-- Constants are as they were. -/
theorem asFloat_of_const (h : o.lifetime.isConst = true) : o.asFloat = o := by
  unfold asFloat
  rw [if_neg]
  intro hboth
  rw [hboth.2] at h
  cases h

/-- So is what is not quantized. -/
theorem asFloat_of_plain (h : o.type.isQuantized = false) : o.asFloat = o := by
  unfold asFloat
  rw [if_neg]
  intro hboth
  rw [hboth.1] at h
  cases h

/-- What is no constant stores its numbers as they are. -/
theorem asFloat_plain (h : o.lifetime.isConst = false) : o.asFloat.type.isQuantized = false := by
  unfold asFloat
  split
  · rfl
  · next hnot =>
    rw [← Bool.not_eq_true]
    exact fun hquantized => hnot ⟨hquantized, h⟩

end Operand

namespace NnapiModelInfo

variable (info : NnapiModelInfo)

@[simp] theorem asFloat_getOperand (i : Nat) :
    info.asFloat.getOperand i = (info.getOperand i).asFloat := by
  exact @List.getD_map _ _ info.mModel.operands { type := .oem, lifetime := .noValue } i
    Operand.asFloat

@[simp] theorem asFloat_isConst (i : Nat) :
    info.asFloat.isOperandLifeTimeConst i = info.isOperandLifeTimeConst i := by
  unfold isOperandLifeTimeConst getOperandLifetime
  rw [asFloat_getOperand, Operand.asFloat_lifetime]

/-- The buffers are untouched. -/
theorem asFloat_operandBuffer (i : Nat) : info.asFloat.operandBuffer i = info.operandBuffer i := by
  unfold operandBuffer
  simp only [asFloat_getOperand, Operand.asFloat_lifetime, Operand.asFloat_location]
  rfl

@[simp] theorem asFloat_scalarValue (T : CType) (i : Nat) :
    info.asFloat.scalarValue T i = info.scalarValue T i := by
  unfold scalarValue
  rw [asFloat_operandBuffer]

variable {info}

/-- A constant is read in the same way. -/
theorem asFloat_vectorValue {i : Nat} (h : info.isOperandLifeTimeConst i = true) (T : CType) :
    info.asFloat.vectorValue T i = info.vectorValue T i := by
  have hoperand : info.asFloat.getOperand i = info.getOperand i := by
    rw [asFloat_getOperand]
    exact Operand.asFloat_of_const h
  have hlength : info.asFloat.operandLength i = info.operandLength i := by
    unfold operandLength
    rw [hoperand]
  unfold vectorValue
  rw [asFloat_operandBuffer, hlength]

/-- And with them the values of the constants. -/
theorem asFloat_constantValue {i : Nat} (h : info.isOperandLifeTimeConst i = true) :
    info.asFloat.constantValue i = info.constantValue i := by
  have hoperand : info.asFloat.getOperand i = info.getOperand i := by
    rw [asFloat_getOperand]
    exact Operand.asFloat_of_const h
  unfold constantValue getOperandType
  rw [hoperand]
  congr 1
  funext c
  rw [asFloat_vectorValue h]

end NnapiModelInfo

/-! ## The two evaluations -/

/-- What is not quantized is its own number. -/
theorem load_plain {o : Operand} {q : Tensor ℝ} (h : o.type.isQuantized = false) :
    o.load q = some q := by
  unfold Operand.load
  rw [h]
  rfl

/-- An operand with a range is one that is quantized. -/
theorem isQuantized_of_affine {o : Operand} {a : Affine ℝ} (h : o.affine = some a) :
    o.type.isQuantized = true := by
  have hrange := (affine_eq_some h).1
  cases hcase : o.type <;> rw [hcase] at hrange
  all_goals first | rfl | cases hrange

/-- What is, is scaled. -/
theorem load_affine {o : Operand} {a : Affine ℝ} (h : o.affine = some a) (q : Tensor ℝ) :
    o.load q = some (q.map fun v => (v - a.zeroPoint) * a.scale) := by
  unfold Operand.load
  rw [if_pos (isQuantized_of_affine h), h]
  rfl

variable {info : NnapiModelInfo} {env real real' : Environment (Tensor ℝ)} {operation : Operation}

/-- The values of one evaluation are the numbers that those of the other stand for,
and each has an integer. -/
structure Agree (info : NnapiModelInfo) (env real : Environment (Tensor ℝ)) : Prop where
  loaded : ∀ i, info.isOperandLifeTimeConst i = false →
    (env i).bind (info.getOperand i).load = real i
  represented : ∀ i x a, info.isOperandLifeTimeConst i = false →
    (info.getOperand i).affine = some a → real i = some x → x.Every a.Represents

/-- The arguments are the same but for the types of the operands. -/
structure Arguments.Alike (g g' : Arguments) : Prop where
  count : g'.count = g.count
  tensor : g'.tensor = g.tensor
  number : g'.number = g.number
  numbers : g'.numbers = g.numbers
  dimensions : ∀ k, (g'.operand k).dimensions = (g.operand k).dimensions
  lifetime : ∀ k, (g'.operand k).lifetime = (g.operand k).lifetime

/-- Both evaluations give an operation the same arguments, but for the types. -/
theorem Agree.alike (h : Agree info env real) (operation : Operation) :
    (info.arguments operation env).Alike (info.asFloat.arguments operation real) where
  count := rfl
  tensor := by
    funext k
    unfold Arguments.tensor NnapiModelInfo.arguments
    dsimp only
    cases hk : operation.inputs[k]? with
    | none => rfl
    | some i =>
        have hi : operation.inputs.getD k 0 = i := by
          rw [List.getD_eq_getElem?_getD, hk]
          rfl
        rw [Option.bind_some, Option.bind_some, hi]
        unfold NnapiModelInfo.storedValue
        rw [info.asFloat_isConst, info.asFloat_getOperand]
        cases hconst : info.isOperandLifeTimeConst i with
        | true =>
            rw [if_pos rfl, if_pos rfl, NnapiModelInfo.asFloat_constantValue hconst,
              Operand.asFloat_of_const hconst]
        | false =>
            rw [if_neg Bool.false_ne_true, if_neg Bool.false_ne_true, h.loaded i hconst]
            cases real i with
            | none => rfl
            | some x => exact load_plain (Operand.asFloat_plain hconst)
  number := by
    unfold NnapiModelInfo.arguments
    simp only [NnapiModelInfo.asFloat_isConst, NnapiModelInfo.asFloat_scalarValue]
  numbers := by
    unfold NnapiModelInfo.arguments
    funext T k
    dsimp only
    cases operation.inputs[k]? with
    | none => rfl
    | some i =>
        rw [Option.bind_some, Option.bind_some, info.asFloat_isConst]
        cases hconst : info.isOperandLifeTimeConst i with
        | true => rw [NnapiModelInfo.asFloat_vectorValue hconst]
        | false => rfl
  dimensions k := by
    unfold NnapiModelInfo.arguments
    simp only [NnapiModelInfo.asFloat_getOperand, Operand.asFloat_dimensions]
  lifetime k := by
    unfold NnapiModelInfo.arguments
    simp only [NnapiModelInfo.asFloat_getOperand, Operand.asFloat_lifetime]

namespace Arguments.Alike

variable {g g' : Arguments}

/-! ### What two such argument lists have in common -/

/-- The positions and axes. -/
theorem vector (h : g.Alike g') : g'.vector = g.vector := by
  funext k
  unfold Arguments.vector
  rw [h.tensor]

/-- The sizes of the operands. -/
theorem declared (h : g.Alike g') : g'.Declared = g.Declared := by
  funext k x
  unfold Arguments.Declared
  rw [h.dimensions]

/-- Which inputs are there. -/
theorem given (h : g.Alike g') : g'.Given = g.Given := by
  funext k
  unfold Arguments.Given
  rw [h.lifetime]

theorem integer (h : g.Alike g') : g'.integer = g.integer := by
  funext k
  unfold Arguments.integer
  rw [h.number]

theorem layout (h : g.Alike g') : g'.layout = g.layout := by
  funext count k
  unfold Arguments.layout
  rw [h.count, h.number]

/-- The reductions over axes. -/
theorem reduced (h : g.Alike g') (f : Reduction) : g'.reduced f = g.reduced f := by
  have hreduction : g'.reduction = g.reduction := by
    funext f keepDims
    unfold Arguments.reduction
    rw [h.tensor, h.vector]
  unfold Arguments.reduced
  rw [hreduction, h.number]

/-- The windows, in either signature. -/
theorem pooling (h : g.Alike g') (reduce : List ℝ → ℝ) :
    g'.pooling reduce = g.pooling reduce := by
  have hflag : g'.layoutFlag = g.layoutFlag := by
    funext k
    unfold Arguments.layoutFlag
    rw [h.count, h.number]
  have hparams : g'.poolParams = g.poolParams := by
    funext explicit
    unfold Arguments.poolParams
    rw [h.integer, hflag]
  have hconstant : g'.ConstantFrom = g.ConstantFrom := by
    funext first
    unfold Arguments.ConstantFrom Arguments.Constant
    rw [h.count, h.number]
  have hsignature : g'.poolSignature = g.poolSignature := by
    unfold Arguments.poolSignature
    rw [h.count]
  unfold Arguments.pooling
  rw [h.tensor, hsignature, hparams, hconstant, h.integer]

/-- An operation that makes no numbers looks at no type. -/
theorem result (h : g.Alike g') {type : OperationType} {ks : List Nat}
    (hselected : type.selected g.count = some ks) : g'.result type = g.result type := by
  cases type
  case channelShuffle =>
    show g'.channelShuffle = g.channelShuffle
    unfold Arguments.channelShuffle
    rw [h.tensor, h.number, h.declared]
  case concatenation =>
    show g'.concatenation = g.concatenation
    unfold Arguments.concatenation
    rw [h.count, h.tensor, h.number]
  case depthToSpace =>
    show g'.depthToSpace = g.depthToSpace
    unfold Arguments.depthToSpace
    rw [h.tensor, h.number, h.layout]
  case spaceToDepth =>
    show g'.spaceToDepth = g.spaceToDepth
    unfold Arguments.spaceToDepth
    rw [h.tensor, h.number, h.layout]
  case embeddingLookup =>
    show g'.embeddingLookup = g.embeddingLookup
    unfold Arguments.embeddingLookup
    rw [h.tensor]
  case gather =>
    show g'.gather = g.gather
    unfold Arguments.gather
    rw [h.tensor, h.number]
  case expandDims =>
    show g'.expandDims = g.expandDims
    unfold Arguments.expandDims
    rw [h.tensor, h.number]
  case reshape =>
    show g'.reshape = g.reshape
    unfold Arguments.reshape
    rw [h.tensor, h.numbers, h.declared]
  case squeeze =>
    show g'.squeeze = g.squeeze
    unfold Arguments.squeeze
    rw [h.tensor, h.vector, h.given]
  case transpose =>
    show g'.transpose = g.transpose
    unfold Arguments.transpose
    rw [h.tensor, h.vector]
    simp only [h.dimensions]
  case pad =>
    show g'.pad = g.pad
    unfold Arguments.pad Arguments.padded
    rw [h.tensor, h.numbers]
  case select =>
    show g'.select = g.select
    unfold Arguments.select
    rw [h.tensor]
  case maxPool2d => exact h.pooling largest
  case maximum | minimum =>
    show g'.binary _ = g.binary _
    unfold Arguments.binary
    rw [h.tensor]
  case reduceMax | reduceMin => exact h.reduced _
  case relu =>
    show g'.unary _ = g.unary _
    unfold Arguments.unary
    rw [h.tensor]
  all_goals cases hselected

end Arguments.Alike

end NnHal
