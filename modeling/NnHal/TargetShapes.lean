import Mathlib.Algebra.BigOperators.Ring.List
import Mathlib.Algebra.Order.BigOperators.GroupWithZero.List
import Mathlib.Data.Nat.Cast.Basic
import NnHal.ConvolutionMeanings
import NnHal.Elementwise
import NnHal.ExplicitPadding
import NnHal.Matrices
import NnHal.PlainSteps

/-!
# The shapes that validation lets through

Two operations check before they are built that the shape they are given fits their input.
`PRelu::validate` compares the sizes of alpha with those of the base by magnitude, and only
when the ranks agree.
-/

namespace NnHal

open Command Tensors

/-! ## Alpha and the base -/

section PRelu

variable {ng : Ngraph} {nodes : NgraphNodes} {self : OperationsBase}

/-- Two lists of one length, compared entry by entry from the last one. -/
theorem all_zipWith_iff {p : Nat → Nat → Bool} {l l' : List Nat} (hlength : l.length = l'.length)
    (hone : p 1 1 = true) :
    (List.zipWith p l l').all id = true ↔
      ∀ k, p (l.reverse.getD k 1) (l'.reverse.getD k 1) = true := by
  have hreverse : l.reverse.length = l'.reverse.length := by simpa using hlength
  rw [← List.all_reverse, List.reverse_zipWith hlength, List.all_eq_true]
  constructor
  · intro hall k
    by_cases hk : k < l.reverse.length
    · have hk' : k < l'.reverse.length := hreverse ▸ hk
      rw [List.getD_eq_getElem _ _ hk, List.getD_eq_getElem _ _ hk']
      have hmem := List.getElem_mem (l := List.zipWith p l.reverse l'.reverse) (n := k)
        (by rw [List.length_zipWith]; omega)
      rw [List.getElem_zipWith] at hmem
      exact hall _ hmem
    · have hout : l.reverse.length ≤ k := Nat.le_of_not_lt hk
      rw [List.getD_eq_default _ _ hout, List.getD_eq_default _ _ (hreverse ▸ hout)]
      exact hone
  · intro hall b hb
    obtain ⟨k, hk, rfl⟩ := List.mem_iff_getElem.mp hb
    rw [List.length_zipWith] at hk
    have hentry := hall k
    rw [List.getD_eq_getElem _ _ (by omega), List.getD_eq_getElem _ _ (by omega)] at hentry
    rw [List.getElem_zipWith]
    exact hentry

/-- Alpha is accepted when it has fewer axes than the base, whatever their sizes, or as many
and none of them larger. -/
theorem PRelu.accepts_iff :
    Accepts ng nodes (PRelu.validate self) ↔
      (self.getInputOperandDimensions 1).length < (self.getInputOperandDimensions 0).length ∨
        (self.getInputOperandDimensions 1).length = (self.getInputOperandDimensions 0).length ∧
          ∀ k, (self.getInputOperandDimensions 1).reverse.getD k 1 ≤
            (self.getInputOperandDimensions 0).reverse.getD k 1 := by
  unfold Accepts PRelu.validate
  by_cases hmore : (self.getInputOperandDimensions 1).length >
      (self.getInputOperandDimensions 0).length
  · rw [if_pos hmore]
    have hrejected : (exec (answer ng) (pure false : Gen Bool) nodes).outcome ≠ .ok true := by
      exact nofun
    constructor
    · exact fun h => absurd h hrejected
    · rintro (hless | ⟨hsame, -⟩) <;> omega
  · rw [if_neg hmore]
    by_cases hsame : (self.getInputOperandDimensions 1).length =
        (self.getInputOperandDimensions 0).length
    · have hall := all_zipWith_iff (p := fun alpha base => decide (alpha ≤ base)) hsame
        (by decide)
      simp only [decide_eq_true_eq] at hall
      rw [if_pos hsame, Prog.pure_eq_done, exec_done]
      simp only [Except.ok.injEq, hall, hsame, true_and, lt_irrefl, false_or]
    · rw [if_neg hsame, Prog.pure_eq_done, exec_done]
      have hless : (self.getInputOperandDimensions 1).length <
          (self.getInputOperandDimensions 0).length := by omega
      exact iff_of_true rfl (.inl hless)

/-- **Alpha.**  What `PRelu::validate` accepts broadcasts to exactly the shape of the base
when alpha has more axes, or as many and one of them is larger, or is of size one on each
axis where it differs. -/
theorem PRelu.validate_fits_iff :
    (Accepts ng nodes (PRelu.validate self) →
      Broadcastable (self.getInputOperandDimensions 0) (self.getInputOperandDimensions 1) ∧
        Tensor.broadcastShape (self.getInputOperandDimensions 0)
          (self.getInputOperandDimensions 1) = self.getInputOperandDimensions 0) ↔
      (self.getInputOperandDimensions 0).length < (self.getInputOperandDimensions 1).length ∨
      ((self.getInputOperandDimensions 1).length = (self.getInputOperandDimensions 0).length ∧
        ∃ k, (self.getInputOperandDimensions 0).reverse.getD k 1 <
          (self.getInputOperandDimensions 1).reverse.getD k 1) ∨
      ∀ k, (self.getInputOperandDimensions 1).reverse.getD k 1 ≠
          (self.getInputOperandDimensions 0).reverse.getD k 1 →
        (self.getInputOperandDimensions 1).reverse.getD k 1 = 1 := by
  rw [PRelu.accepts_iff, broadcastShape_eq_left_iff]
  generalize self.getInputOperandDimensions 0 = base
  generalize self.getInputOperandDimensions 1 = alpha
  have hones : (∀ k, alpha.reverse.getD k 1 ≠ base.reverse.getD k 1 → alpha.reverse.getD k 1 = 1) ↔
      ∀ k, alpha.reverse.getD k 1 = 1 ∨ alpha.reverse.getD k 1 = base.reverse.getD k 1 :=
    forall_congr' fun k => by rw [or_comm]; exact Decidable.or_iff_not_imp_left.symm
  rw [hones]
  constructor
  · intro hfits
    by_cases hmore : base.length < alpha.length
    · exact .inl hmore
    · refine .inr ?_
      by_cases hsame : alpha.length = base.length
      · by_cases hall : ∀ k, alpha.reverse.getD k 1 ≤ base.reverse.getD k 1
        · exact .inr (hfits (.inr ⟨hsame, hall⟩)).2
        · obtain ⟨k, hk⟩ := not_forall.mp hall
          exact .inl ⟨hsame, k, Nat.lt_of_not_le hk⟩
      · exact .inr (hfits (.inl (by omega))).2
  · intro hcases haccepted
    rcases hcases with hmore | ⟨hsame, k, hk⟩ | hall
    · rcases haccepted with hless | ⟨hsame, -⟩ <;> omega
    · rcases haccepted with hless | ⟨-, hle⟩
      · omega
      · exact absurd (hle k) (Nat.not_le_of_lt hk)
    · refine ⟨?_, hall⟩
      rcases haccepted with hless | ⟨hsame, -⟩ <;> omega

/-- Two slopes for three entries are accepted, and do not broadcast. -/
theorem PRelu.twoSlopes_accepted :
    ¬ ∀ (ng : Ngraph) (nodes : NgraphNodes) (self : OperationsBase),
      Accepts ng nodes (PRelu.validate self) →
        Broadcastable (self.getInputOperandDimensions 0) (self.getInputOperandDimensions 1) ∧
          Tensor.broadcastShape (self.getInputOperandDimensions 0)
            (self.getInputOperandDimensions 1) = self.getInputOperandDimensions 0 := by
  intro h
  have hfits := h .permissive {} (sampleOperation .prelu [[3], [2]] []) rfl
  rcases hfits.1 0 with hsame | hbase | halpha
  · exact absurd hsame (by decide)
  · exact absurd hbase (by decide)
  · exact absurd halpha (by decide)

end PRelu

/-! ## Products in `int` -/

/-- No product of leading factors leaves `int32_t`. -/
def ExactProducts (factors : List Int) : Prop := ∀ k, (factors.take k).prod < 2 ^ 31

theorem exactProducts_iff {factors : List Int} :
    ExactProducts factors ↔ ∀ k < factors.length + 1, (factors.take k).prod < 2 ^ 31 := by
  constructor
  · exact fun h k _ => h k
  · intro h k
    rw [List.take_eq_take_min]
    exact h _ (Nat.lt_succ_of_le (Nat.min_le_right _ _))

instance (factors : List Int) : Decidable (ExactProducts factors) :=
  decidable_of_iff _ exactProducts_iff.symm

theorem prod_map_ofNat (dims : List Nat) : (dims.map Int.ofNat).prod = (dims.prod : Int) :=
  (map_list_prod (Nat.castRingHom Int) dims).symm

theorem toInt32_of_range {n : Int} (hlow : 0 ≤ n) (hhigh : n < 2 ^ 31) : toInt32 n = n := by
  unfold toInt32
  rw [Int.bmod_eq_of_le (by omega) (by omega)]

/-- Where no product leaves `int32_t`, the products taken in it are exact. -/
theorem foldl_toInt32_eq_prod {factors : List Int} (hnonneg : ∀ d ∈ factors, 0 ≤ d)
    (hexact : ExactProducts factors) :
    factors.foldl (fun n d => toInt32 (n * d)) 1 = factors.prod := by
  induction factors using List.reverseRecOn with
  | nil => rfl
  | append_singleton factors d ih =>
      have hfront : ∀ e ∈ factors, 0 ≤ e := fun e he => hnonneg e (List.mem_append_left _ he)
      have hprefix : ExactProducts factors := by
        intro k
        have hk := hexact (min k factors.length)
        rw [List.take_append_of_le_length (Nat.min_le_right _ _)] at hk
        rwa [← List.take_eq_take_min] at hk
      have hwhole := hexact (factors ++ [d]).length
      rw [List.take_length, List.prod_append, List.prod_singleton] at hwhole
      have hproduct : 0 ≤ factors.prod * d :=
        Int.mul_nonneg (List.prod_nonneg hfront) (hnonneg d (by simp))
      rw [List.foldl_append, ih hfront hprefix, List.prod_append, List.prod_singleton]
      exact toInt32_of_range hproduct hwhole

namespace Reshape

/-! ## The shape of a reshape -/

/-- The sizes that `ngraph`'s reshape keeps: a zero copies the size of its input's axis, and a
single `-1` is left out. -/
def kept (inShape : List Nat) (shape : List Int) : List Int :=
  shape.zipIdx.filterMap fun d =>
    if d.1 = -1 then none else some (if d.1 = 0 then (inShape.getD d.2 0 : Int) else d.1)

/-- `ngraph`'s reshape, told that zeros are special, takes an input of the first shape to a
tensor of the second: no size is less than `-1`, one at most is `-1`, a zero has an axis to
copy, and the elements can be distributed. -/
def Reshapes (inShape : List Nat) (shape : List Int) : Prop :=
  (∀ d ∈ shape, -1 ≤ d) ∧ shape.count (-1) ≤ 1 ∧
    (∀ k < shape.length, shape.getD k 0 = 0 → k < inShape.length) ∧
    if (-1 : Int) ∈ shape then
      if (kept inShape shape).prod = 0 then inShape.prod = 0
      else (kept inShape shape).prod ∣ inShape.prod
    else (kept inShape shape).prod = inShape.prod

instance (inShape : List Nat) (shape : List Int) : Decidable (Reshapes inShape shape) :=
  inferInstanceAs (Decidable (_ ∧ _ ∧ _ ∧ _))

/-- The product of the entries of a target that are not negative. -/
def given (target : List Int) : Int := (target.filter (0 ≤ ·)).prod

/-- The target, its last negative entry replaced by what the other entries leave. -/
def stretched (inDims : List Nat) (target : List Int) : List Int :=
  match strechDim target with
  | none => target
  | some i => target.set i ((inDims.prod : Int) / given target)

/-- What is handed to `ngraph` for a target. -/
structure HandsOver (inDims : List Nat) (target shape : List Int) : Prop where
  nonneg : ∀ d ∈ shape, 0 ≤ d
  elements : shape.prod = (inDims.prod : Int)
  length : shape.length = target.length
  differs : ∃ i, ∀ k, shape.getD k 0 ≠ target.getD k 0 → k = i ∧ target.getD k 0 < 0

/-- The node with the constant shape. -/
def shaped (input : Node) (shape : List Int) : Node :=
  .mk (.reshape true)
    [(input, 0), (.mk (.constant .i32 [shape.length] (shape.map .int)) [], 0)]

/-- The run divides by no zero, its products do not wrap, and it ends with an exception or with
a node of the right shape. -/
structure Delivers (inDims : List Nat) (target : List Int) (input : Node)
    (run : Ran NgraphNodes Cmd Stop Node) : Prop where
  divides : ∀ sc ∈ run.trace, sc.2 ≠ .fault .divideByZero
  inputExact : ExactProducts (inDims.map Int.ofNat)
  outputExact : ExactProducts (target.filter (0 ≤ ·))
  ends : run.outcome = .error .exception ∨
    ∃ shape, run.outcome = .ok (shaped input shape) ∧ HandsOver inDims target shape

/-- The products fit, and either there is no negative entry, and `ngraph` refuses the target
unless its product is the number of elements, or no entry is zero, and the only negative one
takes what the others leave or `ngraph` refuses the shape. -/
structure Fits (inShape inDims : List Nat) (target : List Int) : Prop where
  inputExact : ExactProducts (inDims.map Int.ofNat)
  outputExact : ExactProducts (target.filter (0 ≤ ·))
  whole : (∀ d ∈ target, 0 ≤ d) → Reshapes inShape target → target.prod = (inDims.prod : Int)
  partly : (∃ d ∈ target, d < 0) → 0 ∉ target ∧
    (target.countP (· < 0) = 1 ∧ given target ∣ (inDims.prod : Int) ∨
      ¬ Reshapes inShape (stretched inDims target))

/-- The last negative entry. -/
theorem strechDim_concat (target : List Int) (d : Int) :
    strechDim (target ++ [d]) = if d < 0 then some target.length else strechDim target := by
  unfold strechDim
  rw [List.zipIdx_append, List.foldl_append]
  simp

theorem strechDim_cases (target : List Int) :
    (strechDim target = none ∧ ∀ d ∈ target, 0 ≤ d) ∨
      ∃ before d after, target = before ++ d :: after ∧ strechDim target = some before.length ∧
        d < 0 ∧ ∀ e ∈ after, 0 ≤ e := by
  induction target using List.reverseRecOn with
  | nil => exact .inl ⟨rfl, nofun⟩
  | append_singleton target d ih =>
      rw [strechDim_concat]
      by_cases hd : d < 0
      · exact .inr ⟨target, d, [], rfl, if_pos hd, hd, nofun⟩
      · rw [if_neg hd]
        rcases ih with ⟨hnone, hall⟩ | ⟨before, e, after, rfl, hsome, he, hafter⟩
        · refine .inl ⟨hnone, fun e he => ?_⟩
          rcases List.mem_append.mp he with he | he
          · exact hall e he
          · rw [List.mem_singleton.mp he]
            exact Int.not_lt.mp hd
        · refine .inr ⟨before, e, after ++ [d], by simp, hsome, he, fun x hx => ?_⟩
          rcases List.mem_append.mp hx with hx | hx
          · exact hafter x hx
          · rw [List.mem_singleton.mp hx]
            exact Int.not_lt.mp hd

theorem given_nonneg (target : List Int) : 0 ≤ given target :=
  List.prod_nonneg fun _ hd => by simpa using (List.mem_filter.mp hd).2

theorem given_eq_zero_iff {target : List Int} : given target = 0 ↔ 0 ∈ target := by
  unfold given
  rw [List.prod_eq_zero_iff, List.mem_filter]
  simp

/-- With exact products the shape is the stretched target, unless the division is by zero. -/
theorem outputDims_eq {inDims : List Nat} {target : List Int}
    (hin : ExactProducts (inDims.map Int.ofNat)) (hout : ExactProducts (target.filter (0 ≤ ·))) :
    outputDims inDims target =
      match strechDim target with
      | none => pure target
      | some i => divInt inDims.prod (given target) >>= fun value =>
          pure (target.set i (toInt32 value)) := by
  have hinput : (inDims >>= fun d => pure (d : Int)).foldl (fun n d => toInt32 (n * d)) 1 =
      (inDims.prod : Int) := by
    have hcast : (inDims >>= fun d => pure (d : Int)) = inDims.map Int.ofNat :=
      (map_eq_pure_bind Int.ofNat inDims).symm
    rw [hcast, foldl_toInt32_eq_prod (by simp) hin, prod_map_ofNat]
  have houtput : target.foldl (fun n d => if d < 0 then n else toInt32 (n * d)) 1 =
      given target := by
    have hfold := foldl_toInt32_eq_prod
      (fun d hd => by simpa using (List.mem_filter.mp hd).2) hout
    rw [List.foldl_filter] at hfold
    rw [given, ← hfold]
    congr 1
    funext n d
    by_cases hd : d < 0
    · rw [if_pos hd, if_neg (by simpa using hd)]
    · rw [if_neg hd, if_pos (by simpa using hd)]
  cases hstrech : strechDim target with
  | none => simp only [outputDims, hstrech]
  | some i => simp only [outputDims, hinput, houtput, hstrech]

section Run

variable {ng : Ngraph} {nodes : NgraphNodes} {self : OperationsBase} {target : List Int}
variable {input : Node}

/-- A division by zero. -/
def divisionByZero : Cmd → Option Unit
  | .fault .divideByZero => some ()
  | _ => none

theorem divisionByZero_none_iff {c : Cmd} : divisionByZero c = none ↔ c ≠ .fault .divideByZero := by
  unfold divisionByZero
  split
  · simp
  · next hother => exact iff_of_true rfl hother

/-- The constant is made and handed to the reshape. -/
theorem exec_shaped (hconst : ∀ shape : List Int,
      ng.accepts (.constant .i32 [shape.length] (shape.map .int)) [] = true) (shape : List Int) :
    (exec (answer ng) (makeShared (.constant .i32 [shape.length] (shape.map .int)) [] >>=
        fun shapeNode => makeShared (.reshape true) [(input, 0), (shapeNode, 0)]) nodes).outcome =
      if ng.accepts (.reshape true)
          [(input, 0), (.mk (.constant .i32 [shape.length] (shape.map .int)) [], 0)]
      then .ok (shaped input shape) else .error .exception := by
  have hmade : answer ng (.make (.constant .i32 [shape.length] (shape.map .int)) []) nodes =
      .ok (.mk (.constant .i32 [shape.length] (shape.map .int)) [], nodes) :=
    if_pos (hconst shape)
  unfold makeShared
  rw [exec_perform_bind hmade]
  by_cases hreshape : ng.accepts (.reshape true)
      [(input, 0), (.mk (.constant .i32 [shape.length] (shape.map .int)) [], 0)] = true
  · have hanswer : answer ng (.make (.reshape true)
        [(input, 0), (.mk (.constant .i32 [shape.length] (shape.map .int)) [], 0)]) nodes =
        .ok (shaped input shape, nodes) := if_pos hreshape
    rw [if_pos hreshape]
    simp only [issue, Prog.perform, exec, hanswer]
  · have hanswer : answer ng (.make (.reshape true)
        [(input, 0), (.mk (.constant .i32 [shape.length] (shape.map .int)) [], 0)]) nodes =
        .error .exception := if_neg hreshape
    rw [if_neg hreshape]
    simp only [issue, Prog.perform, exec, hanswer]

theorem shaped_injective {shape shape' : List Int} (h : shaped input shape = shaped input shape') :
    shape = shape' := by
  unfold shaped at h
  simp only [Node.mk.injEq, List.cons.injEq, Prod.mk.injEq, true_and, and_true,
    NodeOp.constant.injEq] at h
  have hinjective : Function.Injective Scalar.int := fun _ _ => Scalar.int.inj
  exact hinjective.list_map h.2

/-- What is delivered is decided by the shape that is handed over. -/
theorem delivers_shaped {inDims : List Nat} (hconst : ∀ shape : List Int,
      ng.accepts (.constant .i32 [shape.length] (shape.map .int)) [] = true)
    (hreshape : ∀ shape : List Int, ng.accepts (.reshape true)
        [(input, 0), (.mk (.constant .i32 [shape.length] (shape.map .int)) [], 0)] = true ↔
      Reshapes (ng.getShape input) shape) (shape : List Int) :
    Delivers inDims target input
        (exec (answer ng) (makeShared (.constant .i32 [shape.length] (shape.map .int)) [] >>=
          fun shapeNode => makeShared (.reshape true) [(input, 0), (shapeNode, 0)]) nodes) ↔
      ExactProducts (inDims.map Int.ofNat) ∧ ExactProducts (target.filter (0 ≤ ·)) ∧
        (Reshapes (ng.getShape input) shape → HandsOver inDims target shape) := by
  have houtcome := @exec_shaped ng nodes input hconst shape
  have hquiet : Quiet divisionByZero
      (makeShared (.constant .i32 [shape.length] (shape.map .int)) [] >>=
        fun shapeNode => makeShared (.reshape true) [(input, 0), (shapeNode, 0)]) :=
    (quiet_perform rfl).bind fun _ => quiet_perform rfl
  constructor
  · intro h
    refine ⟨h.inputExact, h.outputExact, fun haccepted => ?_⟩
    rw [if_pos ((hreshape shape).mpr haccepted)] at houtcome
    rcases h.ends with hexception | ⟨shape', hreturned, hhands⟩
    · rw [houtcome] at hexception
      cases hexception
    · rw [houtcome, Except.ok.injEq] at hreturned
      rwa [shaped_injective hreturned]
  · intro hboth
    rcases hboth with ⟨hin, hout, hhands⟩
    refine ⟨fun sc hsc => divisionByZero_none_iff.mp (hquiet.trace_none _ sc hsc), hin, hout, ?_⟩
    by_cases haccepted : Reshapes (ng.getShape input) shape
    · rw [if_pos ((hreshape shape).mpr haccepted)] at houtcome
      exact .inr ⟨shape, houtcome, hhands haccepted⟩
    · rw [if_neg (mt (hreshape shape).mp haccepted)] at houtcome
      exact .inl houtcome

/-- A target without negative entries is handed over as it is. -/
theorem handsOver_whole_iff {inDims : List Nat} (hall : ∀ d ∈ target, 0 ≤ d) :
    HandsOver inDims target target ↔ target.prod = (inDims.prod : Int) :=
  ⟨fun h => h.elements, fun h => ⟨hall, h, rfl, 0, fun _ hne => absurd rfl hne⟩⟩

/-- Beside the entry that is replaced two lists agree. -/
theorem getD_append_cons_of_ne {before after : List Int} {d value : Int} {k : Nat}
    (hne : k ≠ before.length) :
    (before ++ value :: after).getD k 0 = (before ++ d :: after).getD k 0 := by
  simp only [List.getD_eq_getElem?_getD, List.getElem?_append]
  by_cases hlt : k < before.length
  · simp [hlt]
  · obtain ⟨j, hj⟩ : ∃ j, k - before.length = j + 1 := ⟨k - before.length - 1, by omega⟩
    simp [hlt, hj]

/-- One with its last negative entry replaced is right when that is the only one and the others
divide the number of elements. -/
theorem handsOver_stretched_iff {inDims : List Nat} (hneg : ∃ d ∈ target, d < 0) :
    HandsOver inDims target (stretched inDims target) ↔
      target.countP (· < 0) = 1 ∧ given target ∣ (inDims.prod : Int) := by
  rcases strechDim_cases target with ⟨-, hall⟩ | ⟨before, d, after, rfl, hlast, hd, hafter⟩
  · rcases hneg with ⟨d, hmem, hd⟩
    exact absurd (hall d hmem) (Int.not_le.mpr hd)
  generalize hvalue : (inDims.prod : Int) / given (before ++ d :: after) = value
  have hstretched : stretched inDims (before ++ d :: after) = before ++ value :: after := by
    unfold stretched
    rw [hlast, hvalue]
    simp
  have hcount : (before ++ d :: after).countP (· < 0) = before.countP (· < 0) + 1 := by
    have hzero : after.countP (· < 0) = 0 :=
      List.countP_eq_zero.mpr fun e he => by simpa using hafter e he
    rw [List.countP_append, List.countP_cons_of_pos (by simpa using hd), hzero]
  have hbefore : before.countP (· < 0) = 0 ↔ ∀ e ∈ before, 0 ≤ e := by
    simp [List.countP_eq_zero]
  rw [hstretched, hcount, Nat.add_eq_right, hbefore]
  have hgiven : (∀ e ∈ before, 0 ≤ e) →
      given (before ++ d :: after) = before.prod * after.prod := by
    intro hall
    unfold given
    rw [List.filter_append, List.filter_cons_of_neg (by simpa using hd), List.prod_append,
      List.filter_eq_self.mpr fun e he => by simpa using hall e he,
      List.filter_eq_self.mpr fun e he => by simpa using hafter e he]
  have hproduct : (∀ e ∈ before, 0 ≤ e) →
      (before ++ value :: after).prod = given (before ++ d :: after) * value := by
    intro hall
    rw [hgiven hall, List.prod_append, List.prod_cons]
    ring
  constructor
  · intro h
    have hall : ∀ e ∈ before, 0 ≤ e := fun e he => h.nonneg e (List.mem_append_left _ he)
    have helements := h.elements
    rw [hproduct hall] at helements
    exact ⟨hall, value, helements.symm⟩
  · intro hboth
    rcases hboth with ⟨hall, hdvd⟩
    have hvalue_nonneg : 0 ≤ value := by
      rw [← hvalue]
      exact Int.ediv_nonneg (Int.natCast_nonneg _) (given_nonneg _)
    refine ⟨fun e he => ?_, ?_, by simp, before.length, fun k hk => ?_⟩
    · rcases List.mem_append.mp he with he | he
      · exact hall e he
      · rcases List.mem_cons.mp he with rfl | he
        · exact hvalue_nonneg
        · exact hafter e he
    · rw [hproduct hall, ← hvalue, Int.mul_ediv_cancel' hdvd]
    · have hsame : k = before.length := by
        by_contra hne
        exact hk (getD_append_cons_of_ne hne)
      subst hsame
      exact ⟨rfl, by simpa using hd⟩

/-- What runs before the division does not decide what is delivered. -/
theorem delivers_after {inDims : List Nat} {front : List (NgraphNodes × Cmd)}
    (hfront : ∀ sc ∈ front, sc.2 ≠ .fault .divideByZero) {run : Ran NgraphNodes Cmd Stop Node} :
    Delivers inDims target input (run.after front) ↔ Delivers inDims target input run := by
  constructor
  · intro h
    exact ⟨fun sc hsc => h.divides sc (List.mem_append_right _ hsc), h.inputExact, h.outputExact,
      h.ends⟩
  · intro h
    refine ⟨fun sc hsc => ?_, h.inputExact, h.outputExact, h.ends⟩
    rcases List.mem_append.mp hsc with hsc | hsc
    · exact hfront sc hsc
    · exact h.divides sc hsc

theorem divides_of_plain {α : Type} {p : Gen α} [hp : Plain p] :
    ∀ sc ∈ (exec (answer ng) p nodes).trace, sc.2 ≠ .fault .divideByZero := by
  have hplain : ∀ c : Cmd, c.plain → divisionByZero c = none := by
    intro c hc
    refine divisionByZero_none_iff.mpr ?_
    intro heq
    subst heq
    exact hc
  exact fun sc hsc => divisionByZero_none_iff.mp ((hp.quiet hplain).trace_none _ sc hsc)

/-- **The reshape.**  For a constant target and an input with a node, `createNode` does what it
is for exactly when the target fits the input. -/
theorem createNode_delivers_iff
    (hconst : ∀ shape : List Int,
      ng.accepts (.constant .i32 [shape.length] (shape.map .int)) [] = true)
    (hreshape : ∀ shape : List Int, ng.accepts (.reshape true)
        [(input, 0), (.mk (.constant .i32 [shape.length] (shape.map .int)) [], 0)] = true ↔
      Reshapes (ng.getShape input) shape)
    (htarget : (exec (answer ng) (self.getConstVecInput .int32 1) nodes).outcome = .ok target)
    (hinput : (exec (answer ng) (self.getInputNode 0) nodes).outcome = .ok input) :
    Delivers (self.getInputOperandDimensions 0) target input
        (exec (answer ng) (createNode self) nodes) ↔
      Fits (ng.getShape input) (self.getInputOperandDimensions 0) target := by
  have htable : (exec (answer ng) (self.getConstVecInput .int32 1) nodes).state = nodes :=
    (Reading.returns inferInstance ng nodes target htarget).1
  have htable' : (exec (answer ng) (self.getInputNode 0) nodes).state = nodes :=
    (Reading.returns inferInstance ng nodes input hinput).1
  unfold createNode
  rw [exec_bind_ok htarget, htable, exec_bind_ok hinput, htable',
    delivers_after divides_of_plain, delivers_after divides_of_plain]
  generalize self.getInputOperandDimensions 0 = inDims
  by_cases hin : ExactProducts (inDims.map Int.ofNat)
  swap
  · exact iff_of_false (fun h => hin h.inputExact) fun h => hin h.inputExact
  by_cases hout : ExactProducts (target.filter (0 ≤ ·))
  swap
  · exact iff_of_false (fun h => hout h.outputExact) fun h => hout h.outputExact
  rw [outputDims_eq hin hout]
  rcases strechDim_cases target with ⟨hnone, hall⟩ | ⟨before, d, after, htargets, hlast, hd, -⟩
  · -- no entry is negative
    have hdelivers := @delivers_shaped ng nodes target input inDims hconst hreshape target
    rw [handsOver_whole_iff hall] at hdelivers
    rw [hnone]
    refine hdelivers.trans
      ⟨fun h => ⟨hin, hout, fun _ => h.2.2, ?_⟩, fun h => ⟨hin, hout, h.whole hall⟩⟩
    intro hboth
    rcases hboth with ⟨e, he, hneg⟩
    exact absurd (hall e he) (Int.not_le.mpr hneg)
  · have hneg : ∃ e ∈ target, e < 0 := ⟨d, by rw [htargets]; simp, hd⟩
    rw [hlast]
    by_cases hzero : 0 ∈ target
    · -- the division is by zero
      refine iff_of_false (fun h => ?_) fun h => (h.partly hneg).1 hzero
      rw [given_eq_zero_iff.mpr hzero] at h
      exact h.divides (nodes, .fault .divideByZero) List.mem_cons_self rfl
    · have hgiven : given target ≠ 0 := mt given_eq_zero_iff.mp hzero
      have hbound : (inDims.prod : Int) < 2 ^ 31 := by
        have hwhole := hin (inDims.map Int.ofNat).length
        rwa [List.take_length, prod_map_ofNat] at hwhole
      have hquotient : toInt32 ((inDims.prod : Int).tdiv (given target)) =
          (inDims.prod : Int) / given target := by
        have hnonneg := Int.natCast_nonneg inDims.prod
        rw [Int.tdiv_eq_ediv_of_nonneg hnonneg]
        refine toInt32_of_range (Int.ediv_nonneg hnonneg (given_nonneg _)) ?_
        exact Int.lt_of_le_of_lt (Int.ediv_le_self _ hnonneg) hbound
      have hstretched : target.set before.length
          (toInt32 ((inDims.prod : Int).tdiv (given target))) = stretched inDims target := by
        unfold stretched
        rw [hlast, hquotient]
      have hdelivers := @delivers_shaped ng nodes target input inDims hconst hreshape
        (stretched inDims target)
      rw [handsOver_stretched_iff hneg] at hdelivers
      simp only [bind_assoc, exec_divInt_bind hgiven, pure_bind, hstretched]
      refine hdelivers.trans
        ⟨fun h => ⟨hin, hout, fun hall => ?_, fun _ => ⟨hzero, ?_⟩⟩, fun h => ?_⟩
      · exact absurd (hall d (by rw [htargets]; simp)) (Int.not_le.mpr hd)
      · exact (Decidable.imp_iff_or_not).mp h.2.2
      · exact ⟨hin, hout, (Decidable.imp_iff_or_not).mpr (h.partly hneg).2⟩

/-- The reshape of a tensor of these dimensions to a target of these bytes. -/
def reshapeOperation (inDims : List Nat) (bytes : List UInt8) : OperationsBase where
  sModelInfo :=
    { mModel :=
        { operands :=
            [{ type := .tensorFloat32, dimensions := inDims, lifetime := .subgraphInput },
              { type := .tensorInt32, dimensions := [bytes.length / 4], lifetime := .constantCopy
                location := { length := bytes.length } }]
          operations := [{ type := .reshape, inputs := [0, 1], outputs := [] }]
          inputIndexes := [0]
          outputIndexes := []
          operandValues := bytes } }
  sPluginType := .cpu
  mNnapiOperationIndex := 0
  mDefaultOutputIndex := 0

/-- The sizes in a constant. -/
def sizesOf (vals : List Scalar) : List Int :=
  vals.filterMap fun
    | .int v => some v
    | _ => none

theorem sizesOf_map (shape : List Int) : sizesOf (shape.map .int) = shape := by
  unfold sizesOf
  rw [List.filterMap_map]
  exact List.filterMap_some

/-- An `ngraph` that knows the shapes of parameters and checks reshapes. -/
def reshapingNgraph : Ngraph :=
  { Ngraph.permissive with
    getShape
      | .mk (.parameter _ _ dims) _ => dims
      | _ => []
    accepts
      | .reshape true, [(.mk (.parameter _ _ dims) _, _), (.mk (.constant _ _ vals) _, _)] =>
          decide (Reshapes dims (sizesOf vals))
      | _, _ => true }

theorem reshapingNgraph_reshapes (operand : Nat) (type : ElementType) (dims : List Nat)
    (shape : List Int) :
    reshapingNgraph.accepts (.reshape true) [(.mk (.parameter operand type dims) [], 0),
        (.mk (.constant .i32 [shape.length] (shape.map .int)) [], 0)] = true ↔
      Reshapes dims shape := by
  unfold reshapingNgraph
  rw [decide_eq_true_eq, sizesOf_map]

/-- Two rows of three become three rows, and the columns are left to be computed. -/
theorem threeRows_delivers :
    Delivers [2, 3] [3, -1] (.mk (.parameter 0 .f32 [2, 3]) [])
      (exec (answer reshapingNgraph)
        (createNode (reshapeOperation [2, 3] [3, 0, 0, 0, 255, 255, 255, 255]))
        (sampleNodes [[2, 3]])) := by
  have htarget : (exec (answer reshapingNgraph)
      ((reshapeOperation [2, 3] [3, 0, 0, 0, 255, 255, 255, 255]).getConstVecInput .int32 1)
      (sampleNodes [[2, 3]])).outcome = .ok [3, -1] := by decide +kernel
  exact (createNode_delivers_iff (fun _ => rfl) (reshapingNgraph_reshapes 0 .f32 [2, 3])
    htarget rfl).mpr ⟨by decide, by decide, by decide, by decide⟩

/-- A zero beside the negative entry is divided by. -/
theorem zeroBesideNegative_divides :
    ¬ ∀ (ng : Ngraph) (nodes : NgraphNodes) (self : OperationsBase) (target : List Int)
      (input : Node),
      (∀ shape : List Int, ng.accepts (.constant .i32 [shape.length] (shape.map .int)) [] = true) →
      (∀ shape : List Int, ng.accepts (.reshape true)
          [(input, 0), (.mk (.constant .i32 [shape.length] (shape.map .int)) [], 0)] = true ↔
        Reshapes (ng.getShape input) shape) →
      Accepts ng nodes (validate self) →
      (exec (answer ng) (self.getConstVecInput .int32 1) nodes).outcome = .ok target →
      (exec (answer ng) (self.getInputNode 0) nodes).outcome = .ok input →
      Delivers (self.getInputOperandDimensions 0) target input
        (exec (answer ng) (createNode self) nodes) := by
  intro h
  have htarget : (exec (answer reshapingNgraph)
      ((reshapeOperation [2, 3] [0, 0, 0, 0, 255, 255, 255, 255]).getConstVecInput .int32 1)
      (sampleNodes [[2, 3]])).outcome = .ok [0, -1] := by decide +kernel
  have hdelivers := h reshapingNgraph (sampleNodes [[2, 3]])
    (reshapeOperation [2, 3] [0, 0, 0, 0, 255, 255, 255, 255]) [0, -1]
    (.mk (.parameter 0 .f32 [2, 3]) []) (fun _ => rfl)
    (reshapingNgraph_reshapes 0 .f32 [2, 3]) rfl htarget rfl
  have hnone : (exec (answer reshapingNgraph)
      (createNode (reshapeOperation [2, 3] [0, 0, 0, 0, 255, 255, 255, 255]))
      (sampleNodes [[2, 3]])).selected divisionByZero = [] :=
    List.filterMap_eq_nil_iff.mpr fun sc hsc =>
      divisionByZero_none_iff.mpr (hdelivers.divides sc hsc)
  exact absurd hnone (by decide)

end Run

end Reshape

end NnHal
