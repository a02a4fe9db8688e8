import Mathlib.Data.List.Forall2
import NnHal.Execution

/-!
# What a phase does

Once the pools of a request have been mapped, the copies of its execution find
every pool in the table: an argument whose pool index is one of the request
points into the memory of that pool.  Each phase has one lemma that says when
it stops and what it changes otherwise.
-/

namespace NnHal

open Command

/-- The pools of the request are mapped. -/
def SharedState.Mapped (s : SharedState) (pools : List HidlMemory) : Prop :=
  MappedTable pools s.mModelInfo.mRequestPoolInfos

/-- The argument's pool is one of the request. -/
def RequestArgument.InPools (arg : RequestArgument) (pools : List HidlMemory) : Prop :=
  arg.location.poolIndex < pools.length

instance (arg : RequestArgument) (pools : List HidlMemory) : Decidable (arg.InPools pools) :=
  inferInstanceAs (Decidable (_ < _))

/-- The memory an argument lies in. -/
def RequestArgument.object (arg : RequestArgument) (pools : List HidlMemory) : Nat :=
  (pools.getD arg.location.poolIndex default).object

/-! ## Arguments -/

theorem MappedTable.getElem {pools : List HidlMemory} {poolInfos : List RunTimePoolInfo}
    (h : MappedTable pools poolInfos) {i : Nat} (hi : i < pools.length) :
    ∃ poolInfo, poolInfos[i]? = some poolInfo ∧ poolInfo.Maps (pools.getD i default) := by
  induction h generalizing i with
  | nil => simp at hi
  | @cons pool poolInfo pools poolInfos hmaps htable ih =>
      cases i with
      | zero => exact ⟨poolInfo, rfl, hmaps⟩
      | succ i => simpa using ih (by simpa using hi)

/-- An argument outside the request's pools fails the assertion. -/
theorem pointOperandAt_none {info : RuntimeInfo} {pools : List HidlMemory}
    (h : MappedTable pools info.mRequestPoolInfos) {arg : RequestArgument}
    (harg : ¬ arg.InPools pools) (operandIndex : Nat) :
    info.pointOperandAt operandIndex arg = none := by
  have hlength : info.mRequestPoolInfos.length ≤ arg.location.poolIndex := by
    have heq := List.Forall₂.length_eq h
    unfold RequestArgument.InPools at harg
    omega
  unfold RuntimeInfo.pointOperandAt
  rw [List.getElem?_eq_none hlength]

/-- Any other one points into the memory of its pool. -/
theorem pointOperandAt_some {info : RuntimeInfo} {pools : List HidlMemory}
    (h : MappedTable pools info.mRequestPoolInfos) {arg : RequestArgument}
    (harg : arg.InPools pools) (operandIndex : Nat) :
    ∃ pointer mOperands,
      info.pointOperandAt operandIndex arg =
        some (pointer, arg.location.length, { info with mOperands }) ∧
      SharedState.follow pointer = .ok (arg.object pools, arg.location.offset) := by
  obtain ⟨poolInfo, hget, hmaps⟩ := h.getElem harg
  unfold RuntimeInfo.pointOperandAt
  rw [hget]
  refine ⟨_, _, rfl, ?_⟩
  simp only [SharedState.follow, hmaps.object]
  rfl

/-! ## The copies -/

namespace BasePreparedModel

variable (pm : BasePreparedModel) (b : Behaviour) (pools : List HidlMemory)

/-- What the copy of an input puts into its blob. -/
def inputContents (memory : Nat → List UInt8) (inputs : List RequestArgument) (i : Nat) :
    List UInt8 :=
  let arg := inputs.getD i default
  pm.conversions.inputBytes (pm.inputType i)
    ((memory (arg.object pools)).drop arg.location.offset) arg.location.length

/-- The input blobs after the copy of an input. -/
def inputBlobsAfter (memory : Nat → List UInt8) (inputs : List RequestArgument)
    (inputBlobs : String → List UInt8) (i : Nat) : String → List UInt8 :=
  if pm.inputNodeName i = "" then inputBlobs
  else
    Function.update inputBlobs (pm.inputNodeName i)
      (overwrite (inputBlobs (pm.inputNodeName i)) (pm.inputContents pools memory inputs i))

/-- The copy of the input returns: its pool is one of the request, `getNodeName`
returns, and `getBlob` does unless the name is empty. -/
def InputPasses (inputs : List RequestArgument) (i : Nat) : Prop :=
  (inputs.getD i default).InPools pools ∧ pm.HasName (pm.inIndex i) ∧
    (pm.inputNodeName i = "" ∨ b.getsInput i = true)

instance (inputs : List RequestArgument) (i : Nat) : Decidable (pm.InputPasses b pools inputs i) :=
  inferInstanceAs (Decidable (_ ∧ _))

/-- The client's memory after the copy of an output. -/
def memoryAfter (outputs : List RequestArgument) (outputBlobs : String → List UInt8)
    (memory : Nat → List UInt8) (i : Nat) : Nat → List UInt8 :=
  let arg := outputs.getD i default
  Function.update memory (arg.object pools)
    (overwriteAt (memory (arg.object pools)) arg.location.offset
      (pm.conversions.outputBytes (pm.outputType i) (outputBlobs (pm.outputNodeName i))))

/-- The client's buffer is as long as the output. -/
def Sufficient (outputs : List RequestArgument) (i : Nat) : Prop :=
  pm.actualLength i = (outputs.getD i default).location.length

instance (outputs : List RequestArgument) (i : Nat) : Decidable (pm.Sufficient outputs i) :=
  inferInstanceAs (Decidable (_ = _))

/-- The shapes after the copy of an output. -/
def shapesAfter (scalarDims : Bool) (outputs : List RequestArgument) (shapes : List OutputShape)
    (i : Nat) : List OutputShape :=
  if pm.outputNodeName i = "" then shapes
  else
    shapes.set i ((shapes.getD i default).update (pm.reportedDims scalarDims i)
      (pm.Sufficient outputs i)).2

/-- The outcome of the copy of an output; `none` where it does not return. -/
def outputCopy (outputs : List RequestArgument) (i : Nat) : Option OutputCopy :=
  if ¬ pm.HasName (pm.outIndex i) then none
  else if pm.outputNodeName i = "" then some .skipped
  else if ¬ b.getsOutput i then none
  else if ¬ (outputs.getD i default).InPools pools then none
  else if ¬ pm.Sufficient outputs i then some .mismatch
  else if pm.ConversionEnds i then some .copied
  else none

end BasePreparedModel

variable {pm : BasePreparedModel} {b : Behaviour} {pools : List HidlMemory} {s : SharedState}

/-- A name that is not empty is one that `getNodeName` returns. -/
theorem hasName_of_ne {operand : Nat} (hname : (pm.getNodeName operand).getD "" ≠ "") :
    pm.HasName operand := by
  unfold BasePreparedModel.HasName
  cases hget : pm.getNodeName operand with
  | none => exact absurd (by rw [hget, Option.getD_none]) hname
  | some name => rfl

/-- The copy of an output without a name passes it over. -/
theorem outputCopy_unnamed {outputs : List RequestArgument} {i : Nat} {copy : OutputCopy}
    (hname : pm.outputNodeName i = "") (h : pm.outputCopy b pools outputs i = some copy) :
    copy = .skipped := by
  unfold BasePreparedModel.outputCopy at h
  by_cases hnamed : pm.HasName (pm.outIndex i)
  · rw [if_neg (not_not.mpr hnamed), if_pos hname] at h
    exact (Option.some.inj h).symm
  · rw [if_pos hnamed] at h
    cases h

/-- The copy of an output with a name returns: the argument is in a pool, and its
length decides between the two outcomes. -/
theorem outputCopy_of_named {outputs : List RequestArgument} {i : Nat} {copy : OutputCopy}
    (hname : pm.outputNodeName i ≠ "") (h : pm.outputCopy b pools outputs i = some copy) :
    b.getsOutput i = true ∧ (outputs.getD i default).InPools pools ∧
      (copy = .mismatch ∧ ¬ pm.Sufficient outputs i ∨
        copy = .copied ∧ pm.Sufficient outputs i ∧ pm.ConversionEnds i) := by
  unfold BasePreparedModel.outputCopy at h
  rw [if_neg (not_not.mpr (hasName_of_ne hname)), if_neg hname] at h
  by_cases hgets : b.getsOutput i = true
  · by_cases hpool : (outputs.getD i default).InPools pools
    · rw [if_neg (not_not.mpr hgets), if_neg (not_not.mpr hpool)] at h
      refine ⟨hgets, hpool, ?_⟩
      by_cases hlength : pm.Sufficient outputs i
      · by_cases hends : pm.ConversionEnds i
        · simp only [hlength, hends, not_true_eq_false, if_false, if_true, Option.some.injEq] at h
          exact .inr ⟨h.symm, hlength, hends⟩
        · simp [hlength, hends] at h
      · rw [if_pos hlength, Option.some.injEq] at h
        exact .inl ⟨h.symm, hlength⟩
    · rw [if_neg (not_not.mpr hgets), if_pos hpool] at h
      cases h
  · rw [if_pos hgets] at h
    cases h

/-- An input copy that returns changes the operand table and the input's
blob. -/
theorem copyInput_ok (h : s.Mapped pools) {inputs : List RequestArgument} {i : Nat}
    (hi : pm.InputPasses b pools inputs i) :
    ∃ mOperands, s.copyInput pm b inputs i = .ok ((),
      { s with
        mModelInfo := { s.mModelInfo with mOperands }
        inputBlobs := pm.inputBlobsAfter pools s.memory inputs s.inputBlobs i }) := by
  obtain ⟨pointer, mOperands, hpoint, hfollow⟩ := pointOperandAt_some h hi.1 (pm.inIndex i)
  refine ⟨mOperands, ?_⟩
  have hblob : s.mModelInfo.getBlobFromMemoryPoolIn pm.mModel inputs i = _ := hpoint
  unfold SharedState.copyInput BasePreparedModel.inputBlobsAfter
  rw [hblob]
  dsimp only
  rw [if_neg (not_not.mpr hi.2.1)]
  by_cases hname : pm.inputNodeName i = ""
  · simp only [hname, if_true]
  · have hgets : b.getsInput i = true := hi.2.2.resolve_left hname
    simp only [hname, hgets, if_false, not_true_eq_false, hfollow]
    rfl

theorem copyInput_error (h : s.Mapped pools) {inputs : List RequestArgument} {i : Nat}
    (hi : ¬ pm.InputPasses b pools inputs i) : ∃ e, s.copyInput pm b inputs i = .error e := by
  by_cases hpool : (inputs.getD i default).InPools pools
  · obtain ⟨pointer, mOperands, hpoint, -⟩ := pointOperandAt_some h hpool (pm.inIndex i)
    have hblob : s.mModelInfo.getBlobFromMemoryPoolIn pm.mModel inputs i = _ := hpoint
    unfold SharedState.copyInput
    rw [hblob]
    dsimp only
    by_cases hnamed : pm.HasName (pm.inIndex i)
    · have hfails : ¬ (pm.inputNodeName i = "" ∨ b.getsInput i = true) :=
        fun hor => hi ⟨hpool, hnamed, hor⟩
      rw [not_or] at hfails
      exact ⟨.exception, by rw [if_neg (not_not.mpr hnamed), if_neg hfails.1, if_pos hfails.2]⟩
    · exact ⟨.badPointer, if_pos hnamed⟩
  · refine ⟨.aborted, ?_⟩
    have hblob : s.mModelInfo.getBlobFromMemoryPoolIn pm.mModel inputs i = none :=
      pointOperandAt_none h hpool _
    unfold SharedState.copyInput
    rw [hblob]

/-- An output copy that returns changes the operand table, the output's shape
and, where the lengths agree, the client's memory. -/
theorem copyOutput_ok (h : s.Mapped pools) {scalarDims : Bool} {outputs : List RequestArgument}
    {i : Nat} {copy : OutputCopy} (hi : pm.outputCopy b pools outputs i = some copy) :
    ∃ mOperands, s.copyOutput pm b scalarDims outputs i = .ok (copy,
      { s with
        mModelInfo := { s.mModelInfo with
          mOperands
          mOutputShapes := pm.shapesAfter scalarDims outputs s.mModelInfo.mOutputShapes i }
        memory := if copy = .copied then pm.memoryAfter pools outputs s.outputBlobs s.memory i
          else s.memory }) := by
  have hnamed : pm.HasName (pm.outIndex i) := by
    by_contra hnot
    rw [BasePreparedModel.outputCopy, if_pos hnot] at hi
    cases hi
  unfold SharedState.copyOutput BasePreparedModel.shapesAfter
  rw [if_neg (not_not.mpr hnamed)]
  by_cases hname : pm.outputNodeName i = ""
  · obtain rfl := outputCopy_unnamed hname hi
    refine ⟨s.mModelInfo.mOperands, ?_⟩
    simp only [hname, if_true, reduceCtorEq, if_false]
  · obtain ⟨hgets, hpool, hcopy⟩ := outputCopy_of_named hname hi
    obtain ⟨pointer, mOperands, hpoint, hfollow⟩ := pointOperandAt_some h hpool (pm.outIndex i)
    have hblob : s.mModelInfo.getBlobFromMemoryPoolOut pm.mModel outputs i = _ := hpoint
    refine ⟨mOperands, ?_⟩
    simp only [hname, hgets, not_true_eq_false, if_false]
    rw [hblob]
    rcases hcopy with ⟨rfl, hlength⟩ | ⟨rfl, hlength, hends⟩
    · have hdiffer : ¬ pm.actualLength i = (outputs.getD i default).location.length := hlength
      simp only [hdiffer, hlength, decide_false, not_false_eq_true, if_true, reduceCtorEq,
        if_false]
      rfl
    · have hequal : pm.actualLength i = (outputs.getD i default).location.length := hlength
      simp only [hequal, hlength, hends, decide_true, not_true_eq_false, if_false, if_true,
        hfollow]
      rfl

theorem copyOutput_error (h : s.Mapped pools) {scalarDims : Bool} {outputs : List RequestArgument}
    {i : Nat} (hi : pm.outputCopy b pools outputs i = none) :
    ∃ e, s.copyOutput pm b scalarDims outputs i = .error e := by
  unfold BasePreparedModel.outputCopy at hi
  unfold SharedState.copyOutput
  by_cases hnamed : pm.HasName (pm.outIndex i)
  swap
  · exact ⟨.badPointer, if_pos hnamed⟩
  rw [if_neg (not_not.mpr hnamed)] at hi ⊢
  by_cases hname : pm.outputNodeName i = ""
  · rw [if_pos hname] at hi
    cases hi
  · rw [if_neg hname] at hi ⊢
    by_cases hgets : b.getsOutput i = true
    · rw [if_neg (not_not.mpr hgets)] at hi ⊢
      by_cases hpool : (outputs.getD i default).InPools pools
      · rw [if_neg (not_not.mpr hpool)] at hi
        by_cases hlength : pm.Sufficient outputs i
        · obtain ⟨pointer, mOperands, hpoint, -⟩ := pointOperandAt_some h hpool (pm.outIndex i)
          have hblob : s.mModelInfo.getBlobFromMemoryPoolOut pm.mModel outputs i = _ := hpoint
          have hequal : pm.actualLength i = (outputs.getD i default).location.length := hlength
          have hends : ¬ pm.ConversionEnds i := by
            intro hends
            simp [hlength, hends] at hi
          rw [hblob]
          simp only [hequal, decide_true, not_true_eq_false, if_false, hends, not_false_eq_true,
            if_true]
          exact ⟨_, rfl⟩
        · rw [if_pos hlength] at hi
          cases hi
      · have hblob : s.mModelInfo.getBlobFromMemoryPoolOut pm.mModel outputs i = none :=
          pointOperandAt_none h hpool _
        rw [hblob]
        exact ⟨_, rfl⟩
    · rw [if_pos hgets]
      exact ⟨_, rfl⟩

/-! ## What a copy leaves alone -/

theorem pointOperandAt_frame {info info' : RuntimeInfo} {operandIndex len : Nat}
    {arg : RequestArgument} {pointer : Pointer}
    (h : info.pointOperandAt operandIndex arg = some (pointer, len, info')) :
    len = arg.location.length ∧ ∃ mOperands, info' = { info with mOperands } := by
  unfold RuntimeInfo.pointOperandAt at h
  split at h
  · cases h
  · simp only [Option.some.injEq, Prod.mk.injEq] at h
    exact ⟨h.2.1.symm, _, h.2.2.symm⟩

@[simp]
theorem length_overwrite (dest src : List UInt8) : (overwrite dest src).length = dest.length := by
  simp only [overwrite, List.length_append, List.length_take, List.length_drop]
  omega

/-- An input copy changes the operand table and the contents of an input blob
only, whatever is mapped. -/
theorem copyInput_frame {s' : SharedState} {arguments : List RequestArgument} {i : Nat}
    (h : s.copyInput pm b arguments i = .ok ((), s')) :
    ∃ mOperands inputBlobs, (∀ name, (inputBlobs name).length = (s.inputBlobs name).length) ∧
      s' = { s with mModelInfo := { s.mModelInfo with mOperands }, inputBlobs } := by
  unfold SharedState.copyInput at h
  cases hblob : s.mModelInfo.getBlobFromMemoryPoolIn pm.mModel arguments i with
  | none => simp [hblob] at h
  | some found =>
      rcases found with ⟨pointer, len, info⟩
      obtain ⟨-, mOperands, rfl⟩ := pointOperandAt_frame hblob
      simp only [hblob] at h
      split at h
      · cases h
      split at h
      · cases h
        exact ⟨mOperands, s.inputBlobs, fun _ => rfl, rfl⟩
      · split at h
        · cases h
        · cases hfollow : SharedState.follow pointer with
          | error e => simp [hfollow, bind, Except.bind] at h
          | ok target =>
              simp only [hfollow, bind, Except.bind] at h
              cases h
              refine ⟨mOperands, _, fun name => ?_, rfl⟩
              by_cases hname : name = pm.inputNodeName i
              · subst hname
                rw [Function.update_self, length_overwrite]
              · rw [Function.update_of_ne hname]

/-- An output copy changes the operand table, the output's shape and the client's
memory only. -/
theorem copyOutput_frame {s' : SharedState} {scalarDims : Bool} {arguments : List RequestArgument}
    {i : Nat} {copy : OutputCopy}
    (h : s.copyOutput pm b scalarDims arguments i = .ok (copy, s')) :
    ∃ mOperands memory,
      s' = { s with
        mModelInfo := { s.mModelInfo with
          mOperands
          mOutputShapes := pm.shapesAfter scalarDims arguments s.mModelInfo.mOutputShapes i }
        memory } := by
  unfold SharedState.copyOutput at h
  unfold BasePreparedModel.shapesAfter
  split at h
  · cases h
  split at h
  · next hname =>
    cases h
    simp only [hname, if_true]
    exact ⟨_, _, rfl⟩
  · next hname =>
    simp only [hname, if_false]
    split at h
    · cases h
    · cases hblob : s.mModelInfo.getBlobFromMemoryPoolOut pm.mModel arguments i with
      | none => simp [hblob] at h
      | some found =>
          rcases found with ⟨pointer, len, info⟩
          obtain ⟨rfl, mOperands, rfl⟩ := pointOperandAt_frame hblob
          simp only [hblob] at h
          split at h
          · cases h
            exact ⟨mOperands, s.memory, rfl⟩
          · split at h
            · cases h
            · cases hfollow : SharedState.follow pointer with
              | error e => simp [hfollow, bind, Except.bind] at h
              | ok target =>
                  simp only [hfollow, bind, Except.bind] at h
                  cases h
                  exact ⟨mOperands, _, rfl⟩

/-! ## The loops -/

namespace BasePreparedModel

variable (pm : BasePreparedModel) (b : Behaviour) (pools : List HidlMemory)

/-- How the loop over the outputs ends: with true after the last one, with false
at the first length that does not match; `none` where a copy does not return. -/
def outputsEnd (outputs : List RequestArgument) : List Nat → Option Bool
  | [] => some true
  | i :: is =>
      match pm.outputCopy b pools outputs i with
      | none => none
      | some .mismatch => some false
      | some .skipped | some .copied => outputsEnd outputs is

/-- The outputs whose shapes the loop records. -/
def recordedOutputs (outputs : List RequestArgument) : List Nat → List Nat
  | [] => []
  | i :: is =>
      match pm.outputCopy b pools outputs i with
      | none => []
      | some .mismatch => [i]
      | some .skipped | some .copied => i :: recordedOutputs outputs is

/-- What the loop over the outputs makes of the client's memory and the
shapes. -/
def outputsEffect (scalarDims : Bool) (outputs : List RequestArgument)
    (outputBlobs : String → List UInt8) :
    List Nat → (Nat → List UInt8) → List OutputShape → (Nat → List UInt8) × List OutputShape
  | [], memory, shapes => (memory, shapes)
  | i :: is, memory, shapes =>
      let shapes := pm.shapesAfter scalarDims outputs shapes i
      match pm.outputCopy b pools outputs i with
      | some .copied =>
          outputsEffect scalarDims outputs outputBlobs is
            (pm.memoryAfter pools outputs outputBlobs memory i) shapes
      | some .skipped => outputsEffect scalarDims outputs outputBlobs is memory shapes
      | some .mismatch | none => (memory, shapes)

end BasePreparedModel

/-- The loop over the inputs returns when every copy does. -/
theorem exec_copyInputs {inputs : List RequestArgument} (is : List Nat) (h : s.Mapped pools)
    (his : ∀ i ∈ is, pm.InputPasses b pools inputs i) :
    let run := exec (executionAnswer pm b) (BasePreparedModel.copyInputs inputs is) s
    run.outcome = .ok () ∧ ∃ mOperands, run.state =
      { s with
        mModelInfo := { s.mModelInfo with mOperands }
        inputBlobs := is.foldl (pm.inputBlobsAfter pools s.memory inputs) s.inputBlobs } := by
  induction is generalizing s with
  | nil => exact ⟨rfl, s.mModelInfo.mOperands, rfl⟩
  | cons i is ih =>
      obtain ⟨mOperands, hcopy⟩ := copyInput_ok h (his i List.mem_cons_self)
      have hanswer : executionAnswer pm b (.copyInput inputs i) s = _ := hcopy
      have hrest := fun hmapped => @ih
        { s with
          mModelInfo := { s.mModelInfo with mOperands }
          inputBlobs := pm.inputBlobsAfter pools s.memory inputs s.inputBlobs i }
        hmapped fun j hj => his j (List.mem_cons_of_mem _ hj)
      obtain ⟨houtcome, mOperands', hstate⟩ := hrest h
      rw [BasePreparedModel.copyInputs, exec_perform_bind hanswer]
      exact ⟨houtcome, mOperands', hstate⟩

theorem exec_copyInputs_error {inputs : List RequestArgument} (is : List Nat)
    (h : s.Mapped pools) (his : ¬ ∀ i ∈ is, pm.InputPasses b pools inputs i) :
    let run := exec (executionAnswer pm b) (BasePreparedModel.copyInputs inputs is) s
    (∃ e, run.outcome = .error e) ∧ run.state.memory = s.memory ∧
      run.state.mModelInfo.mOutputShapes = s.mModelInfo.mOutputShapes := by
  induction is generalizing s with
  | nil => simp at his
  | cons i is ih =>
      rw [BasePreparedModel.copyInputs]
      by_cases hi : pm.InputPasses b pools inputs i
      · obtain ⟨mOperands, hcopy⟩ := copyInput_ok h hi
        have hanswer : executionAnswer pm b (.copyInput inputs i) s = _ := hcopy
        have hrest : ¬ ∀ j ∈ is, pm.InputPasses b pools inputs j := by
          intro hall
          exact his (List.forall_mem_cons.mpr ⟨hi, hall⟩)
        rw [exec_perform_bind hanswer]
        exact ih h hrest
      · obtain ⟨e, hcopy⟩ := copyInput_error h hi
        have hanswer : executionAnswer pm b (.copyInput inputs i) s = .error e := hcopy
        rw [exec_perform_bind_error hanswer]
        exact ⟨⟨e, rfl⟩, rfl, rfl⟩

/-- The loop over the outputs ends as `outputsEnd` says. -/
theorem exec_copyOutputs {scalarDims : Bool} {outputs : List RequestArgument} (is : List Nat)
    (h : s.Mapped pools) {all : Bool} (hend : pm.outputsEnd b pools outputs is = some all) :
    let run := exec (executionAnswer pm b) (BasePreparedModel.copyOutputs scalarDims outputs is) s
    let effect := pm.outputsEffect b pools scalarDims outputs s.outputBlobs is s.memory
      s.mModelInfo.mOutputShapes
    run.outcome = .ok all ∧ ∃ mOperands, run.state =
      { s with
        mModelInfo := { s.mModelInfo with mOperands, mOutputShapes := effect.2 }
        memory := effect.1 } := by
  induction is generalizing s with
  | nil =>
      obtain rfl : true = all := Option.some.inj hend
      exact ⟨rfl, s.mModelInfo.mOperands, rfl⟩
  | cons i is ih =>
      simp only [BasePreparedModel.outputsEnd] at hend
      simp only [BasePreparedModel.copyOutputs, BasePreparedModel.outputsEffect]
      cases hi : pm.outputCopy b pools outputs i with
      | none => simp [hi] at hend
      | some copy =>
          obtain ⟨mOperands, hcopy⟩ := @copyOutput_ok pm b pools s h scalarDims outputs i copy hi
          have hanswer : executionAnswer pm b (.copyOutput scalarDims outputs i) s = _ := hcopy
          rw [exec_perform_bind hanswer]
          cases copy with
          | mismatch =>
              obtain rfl : false = all := by simpa [hi] using hend
              exact ⟨rfl, mOperands, rfl⟩
          | skipped | copied =>
              rw [hi] at hend
              obtain ⟨houtcome, mOperands', hstate⟩ := @ih
                { s with
                  mModelInfo := { s.mModelInfo with
                    mOperands
                    mOutputShapes :=
                      pm.shapesAfter scalarDims outputs s.mModelInfo.mOutputShapes i }
                  memory := _ } h hend
              exact ⟨houtcome, mOperands', hstate⟩

theorem exec_copyOutputs_error {scalarDims : Bool} {outputs : List RequestArgument}
    (is : List Nat) (h : s.Mapped pools) (hend : pm.outputsEnd b pools outputs is = none) :
    let run := exec (executionAnswer pm b) (BasePreparedModel.copyOutputs scalarDims outputs is) s
    (∃ e, run.outcome = .error e) ∧
      run.state.memory = (pm.outputsEffect b pools scalarDims outputs s.outputBlobs is s.memory
        s.mModelInfo.mOutputShapes).1 ∧
      run.state.mModelInfo.mOutputShapes = (pm.recordedOutputs b pools outputs is).foldl
        (pm.shapesAfter scalarDims outputs) s.mModelInfo.mOutputShapes := by
  induction is generalizing s with
  | nil => cases hend
  | cons i is ih =>
      simp only [BasePreparedModel.outputsEnd] at hend
      simp only [BasePreparedModel.copyOutputs, BasePreparedModel.outputsEffect,
        BasePreparedModel.recordedOutputs]
      cases hi : pm.outputCopy b pools outputs i with
      | none =>
          obtain ⟨e, hcopy⟩ := @copyOutput_error pm b pools s h scalarDims outputs i hi
          have hanswer : executionAnswer pm b (.copyOutput scalarDims outputs i) s = .error e :=
            hcopy
          rw [exec_perform_bind_error hanswer]
          exact ⟨⟨e, rfl⟩, rfl, rfl⟩
      | some copy =>
          obtain ⟨mOperands, hcopy⟩ := @copyOutput_ok pm b pools s h scalarDims outputs i copy hi
          have hanswer : executionAnswer pm b (.copyOutput scalarDims outputs i) s = _ := hcopy
          rw [exec_perform_bind hanswer]
          rw [hi] at hend
          cases copy with
          | mismatch => cases hend
          | skipped | copied =>
              obtain ⟨he, hmemory, hshapes⟩ := @ih
                { s with
                  mModelInfo := { s.mModelInfo with
                    mOperands
                    mOutputShapes :=
                      pm.shapesAfter scalarDims outputs s.mModelInfo.mOutputShapes i }
                  memory := _ } h hend
              exact ⟨he, hmemory, hshapes⟩

/-- The update of a pool succeeds: its changes are synchronized, or need not
be. -/
def HidlMemory.updates (pool : HidlMemory) (syncs : Bool) : Bool :=
  pool.name ≠ .mmapFd || ¬ pool.writable || syncs

theorem update_of_maps {poolInfo : RunTimePoolInfo} {pool : HidlMemory} (h : poolInfo.Maps pool)
    (syncs : Bool) : poolInfo.update syncs = some (pool.updates syncs) := by
  unfold RunTimePoolInfo.update HidlMemory.updates
  rw [h.hidlMemory]
  cases hname : pool.name with
  | ashmem =>
      obtain ⟨memory, hmemory⟩ := Option.isSome_iff_exists.mp (h.memory hname)
      simp [hmemory]
  | mmapFd => cases pool.writable <;> simp
  | hardwareBufferBlob | other name => simp

/-- The update of the pools returns true, whatever the pools answer. -/
theorem updateRequestPoolInfos_mapped (h : s.Mapped pools) (syncs : Nat → Bool) :
    s.mModelInfo.updateRequestPoolInfos syncs = some true := by
  refine if_pos (List.all_eq_true.mpr fun result hresult => ?_)
  obtain ⟨i, hi, rfl⟩ := List.mem_mapIdx.mp hresult
  have hpool : i < pools.length := by
    have hlength := List.Forall₂.length_eq h
    omega
  obtain ⟨poolInfo, hget, hmaps⟩ := MappedTable.getElem h hpool
  obtain ⟨_, hentry⟩ := List.getElem?_eq_some_iff.mp hget
  rw [hentry, update_of_maps hmaps]
  rfl

theorem updateRequestPoolInfos_answer (h : s.Mapped pools) :
    executionAnswer pm b .updateRequestPoolInfos s = .ok (true, s) := by
  simp only [executionAnswer, updateRequestPoolInfos_mapped h]

/-! ## The phases one after the other -/

/-- The commands that close an execution. -/
def ExecutionCmd.closing : ExecutionCmd → Option ExecutionCmd
  | .updateRequestPoolInfos => some .updateRequestPoolInfos
  | .notify n => some (.notify n)
  | _ => none

theorem quiet_copyInputs (inputs : List RequestArgument) (is : List Nat) :
    Quiet ExecutionCmd.closing (BasePreparedModel.copyInputs inputs is) := by
  induction is with
  | nil => exact quiet_pure ()
  | cons i is ih => exact Quiet.bind (quiet_perform rfl) fun _ => ih

theorem quiet_copyOutputs (scalarDims : Bool) (outputs : List RequestArgument) (is : List Nat) :
    Quiet ExecutionCmd.closing (BasePreparedModel.copyOutputs scalarDims outputs is) := by
  induction is with
  | nil => exact quiet_pure true
  | cons i is ih =>
      exact Quiet.bind (quiet_perform rfl) fun copy => quiet_ite (quiet_pure false) ih

/-- The commands that do not map pools. -/
def ExecutionCmd.beyondMapping : ExecutionCmd → Option ExecutionCmd
  | .setRunTimePoolInfos _ | .setRunTimeMemoryPools _ => none
  | c => some c

/-- The commands that do not report. -/
def ExecutionCmd.beforeReport : ExecutionCmd → Option ExecutionCmd
  | .getOutputShapes | .notify _ => none
  | c => some c

/-- A program that maps the pools: it succeeds when `mapsAll` says so, and
changes the table of the pools and the mappings only. -/
structure MapsPools (pm : BasePreparedModel) (b : Behaviour) (pools : List HidlMemory)
    (mapPools : Execution ErrorStatus) : Prop where
  only : Quiet ExecutionCmd.beyondMapping mapPools
  returns : ∀ s, ∃ status mRequestPoolInfos mappings,
    (exec (executionAnswer pm b) mapPools s).outcome = .ok status ∧
      (exec (executionAnswer pm b) mapPools s).state =
        { s with mModelInfo := { s.mModelInfo with mRequestPoolInfos }, mappings } ∧
        (status = .none ↔ mapsAll b.maps 0 pools = true) ∧
          (status = .none → MappedTable pools mRequestPoolInfos)

theorem MapsPools.quiet {pm : BasePreparedModel} {b : Behaviour} {pools : List HidlMemory}
    {mapPools : Execution ErrorStatus} (h : MapsPools pm b pools mapPools) :
    Quiet ExecutionCmd.closing mapPools :=
  h.only.mono fun c hc => by
    cases c with
    | setRunTimePoolInfos pools | setRunTimeMemoryPools pools => rfl
    | _ => cases hc

theorem mapsPools_hidlMemories (pm : BasePreparedModel) (b : Behaviour)
    (pools : List HidlMemory) :
    MapsPools pm b pools (BasePreparedModel.issue (.setRunTimePoolInfos pools)) := by
  refine ⟨quiet_perform rfl, fun s => ?_⟩
  obtain ⟨hstatus, htable⟩ := s.mModelInfo.setRunTimePoolInfosFromHidlMemories_mapped b.maps
    s.mappings pools
  exact ⟨_, _, _, rfl, rfl, hstatus, htable⟩

theorem mapsPools_memoryPools (pm : BasePreparedModel) (b : Behaviour)
    (pools : List MemoryPool) :
    MapsPools pm b (pools.map MemoryPool.convertToV1_0)
      (BasePreparedModel.issue (.setRunTimeMemoryPools pools)) := by
  refine ⟨quiet_perform rfl, fun s => ?_⟩
  obtain ⟨hstatus, htable⟩ := s.mModelInfo.setRunTimePoolInfosFromMemoryPools_mapped b.maps
    s.mappings pools
  exact ⟨_, _, _, rfl, rfl, hstatus, htable⟩

section Phases

variable {scalarDims : Bool} {mapPools : Execution ErrorStatus}
  {inputs outputs : List RequestArgument}

open BasePreparedModel

/-- Every input copy of the request returns. -/
def BasePreparedModel.InputsPass (pm : BasePreparedModel) (b : Behaviour)
    (pools : List HidlMemory) (inputs : List RequestArgument) : Prop :=
  ∀ i ∈ List.range inputs.length, pm.InputPasses b pools inputs i

instance (pm : BasePreparedModel) (b : Behaviour) (pools : List HidlMemory)
    (inputs : List RequestArgument) : Decidable (pm.InputsPass b pools inputs) :=
  inferInstanceAs (Decidable (∀ i ∈ List.range inputs.length, pm.InputPasses b pools inputs i))

/-- The input blobs after the copies of the request's inputs. -/
def BasePreparedModel.requestBlobs (pm : BasePreparedModel) (pools : List HidlMemory)
    (inputs : List RequestArgument) (s : SharedState) : String → List UInt8 :=
  (List.range inputs.length).foldl (pm.inputBlobsAfter pools s.memory inputs) s.inputBlobs

/-- The client's memory and the shapes after the copies of the request's
outputs. -/
def BasePreparedModel.requestEffect (pm : BasePreparedModel) (b : Behaviour)
    (pools : List HidlMemory) (scalarDims : Bool) (inputs outputs : List RequestArgument)
    (s : SharedState) : (Nat → List UInt8) × List OutputShape :=
  pm.outputsEffect b pools scalarDims outputs (pm.infer (pm.requestBlobs pools inputs s))
    (List.range outputs.length) s.memory s.mModelInfo.mOutputShapes

/-- How the loop over the outputs of the request ends. -/
def BasePreparedModel.requestOutputsEnd (pm : BasePreparedModel) (b : Behaviour)
    (pools : List HidlMemory) (outputs : List RequestArgument) : Option Bool :=
  pm.outputsEnd b pools outputs (List.range outputs.length)

theorem phases_unmapped (hmap : MapsPools pm b pools mapPools)
    (h : mapsAll b.maps 0 pools = false) :
    let run := exec (executionAnswer pm b) (phases scalarDims mapPools inputs outputs) s
    (∃ status, status ≠ .none ∧ run.outcome = .ok (.unmapped status)) ∧
      run.state.memory = s.memory ∧
        run.state.mModelInfo.mOutputShapes = s.mModelInfo.mOutputShapes := by
  obtain ⟨status, mRequestPoolInfos, mappings, houtcome, hstate, hstatus, -⟩ := hmap.returns s
  have hfails : status ≠ .none := fun hnone => by simp [hstatus.mp hnone] at h
  simp only [phases]
  rw [exec_bind_ok houtcome, if_pos hfails, hstate]
  exact ⟨⟨status, hfails, rfl⟩, rfl, rfl⟩

/-- With the pools mapped the rest of the phases follow. -/
theorem phases_mapped (hmap : MapsPools pm b pools mapPools)
    (h : mapsAll b.maps 0 pools = true) :
    ∃ s₁ : SharedState, s₁.Mapped pools ∧ s₁.memory = s.memory ∧ s₁.inputBlobs = s.inputBlobs ∧
      s₁.mModelInfo.mOutputShapes = s.mModelInfo.mOutputShapes ∧
        exec (executionAnswer pm b) (phases scalarDims mapPools inputs outputs) s =
          (exec (executionAnswer pm b) (inputPhases scalarDims inputs outputs) s₁).after
            (exec (executionAnswer pm b) mapPools s).trace := by
  obtain ⟨status, mRequestPoolInfos, mappings, houtcome, hstate, hstatus, htable⟩ := hmap.returns s
  obtain rfl : status = .none := hstatus.mpr h
  rw [phases, exec_bind_ok houtcome, hstate]
  exact ⟨{ s with mModelInfo := { s.mModelInfo with mRequestPoolInfos }, mappings }, htable rfl,
    rfl, rfl, rfl, rfl⟩

/-- With the inputs copied the inference follows. -/
theorem inputPhases_copied (h : s.Mapped pools) (hinputs : pm.InputsPass b pools inputs) :
    ∃ s₁ : SharedState, s₁.Mapped pools ∧ s₁.memory = s.memory ∧
      s₁.inputBlobs = pm.requestBlobs pools inputs s ∧
      s₁.mModelInfo.mOutputShapes = s.mModelInfo.mOutputShapes ∧
        exec (executionAnswer pm b) (inputPhases scalarDims inputs outputs) s =
          (exec (executionAnswer pm b) (inferPhases scalarDims outputs) s₁).after
            (exec (executionAnswer pm b)
              (copyInputs inputs (List.range inputs.length)) s).trace := by
  obtain ⟨houtcome, mOperands, hstate⟩ := exec_copyInputs _ h hinputs
  rw [inputPhases, exec_bind_ok houtcome]
  refine ⟨_, ?_, ?_, ?_, ?_, rfl⟩
  all_goals rw [hstate]
  · exact h
  · rfl

theorem inputPhases_error (h : s.Mapped pools) (hinputs : ¬ pm.InputsPass b pools inputs) :
    let run := exec (executionAnswer pm b) (inputPhases scalarDims inputs outputs) s
    (∃ e, run.outcome = .error e) ∧ run.state.memory = s.memory ∧
      run.state.mModelInfo.mOutputShapes = s.mModelInfo.mOutputShapes := by
  obtain ⟨⟨e, he⟩, hsame⟩ := exec_copyInputs_error _ h hinputs
  rw [inputPhases, exec_bind_error he]
  exact ⟨⟨e, rfl⟩, hsame⟩

theorem inferPhases_notInferred (h : b.infers = false) :
    exec (executionAnswer pm b) (inferPhases scalarDims outputs) s =
      ⟨.ok .notInferred, s, [(s, .infer)]⟩ := by
  have hanswer : executionAnswer pm b .infer s = .ok (false, s) := by
    simp [executionAnswer, SharedState.infer, h]
  rw [inferPhases, exec_perform_bind hanswer]
  rfl

/-- With the inference done the output copies follow. -/
theorem inferPhases_inferred (h : s.Mapped pools) (hinfers : b.infers = true) :
    ∃ s₁ : SharedState, s₁.Mapped pools ∧ s₁.memory = s.memory ∧
      s₁.outputBlobs = pm.infer s.inputBlobs ∧
      s₁.mModelInfo.mOutputShapes = s.mModelInfo.mOutputShapes ∧
        executionAnswer pm b .infer s = .ok (true, s₁) ∧
        exec (executionAnswer pm b) (inferPhases scalarDims outputs) s =
          (exec (executionAnswer pm b) (outputPhases scalarDims outputs) s₁).after
            [(s, .infer)] := by
  have hanswer : executionAnswer pm b .infer s =
      .ok (true, { s with outputBlobs := pm.infer s.inputBlobs }) := by
    simp [executionAnswer, SharedState.infer, hinfers]
  rw [inferPhases, exec_perform_bind hanswer]
  exact ⟨{ s with outputBlobs := pm.infer s.inputBlobs }, h, rfl, rfl, rfl, hanswer, rfl⟩

/-- Up to the output copies: the output blobs hold what is inferred from the
input blobs. -/
theorem phases_inferred (hmap : MapsPools pm b pools mapPools)
    (h : mapsAll b.maps 0 pools = true) (hinputs : pm.InputsPass b pools inputs)
    (hinfers : b.infers = true) :
    ∃ (s₁ s₂ : SharedState) (front : List (SharedState × ExecutionCmd)), s₂.Mapped pools ∧
      s₂.memory = s.memory ∧
      s₂.outputBlobs = pm.infer (pm.requestBlobs pools inputs s) ∧
      s₂.mModelInfo.mOutputShapes = s.mModelInfo.mOutputShapes ∧
      executionAnswer pm b .infer s₁ = .ok (true, s₂) ∧ (s₁, .infer) ∈ front ∧
      (∀ sc ∈ front, sc.2.closing = none) ∧
        exec (executionAnswer pm b) (phases scalarDims mapPools inputs outputs) s =
          (exec (executionAnswer pm b) (outputPhases scalarDims outputs) s₂).after front := by
  obtain ⟨t, hmapped, hmemory, hblobs, hshapes, hphases⟩ :=
    @phases_mapped pm b pools s scalarDims mapPools inputs outputs hmap h
  obtain ⟨s₁, hmapped₁, hmemory₁, hblobs₁, hshapes₁, hinputPhases⟩ :=
    @inputPhases_copied pm b pools t scalarDims inputs outputs hmapped hinputs
  obtain ⟨s₂, hmapped₂, hmemory₂, hblobs₂, hshapes₂, hanswer, hinferPhases⟩ :=
    @inferPhases_inferred pm b pools s₁ scalarDims outputs hmapped₁ hinfers
  rw [hphases, hinputPhases, hinferPhases]
  refine ⟨s₁, s₂, (exec (executionAnswer pm b) mapPools s).trace ++
    ((exec (executionAnswer pm b) (copyInputs inputs (List.range inputs.length)) t).trace ++
      [(s₁, .infer)]), hmapped₂, ?_, ?_, ?_, hanswer, by simp, ?_, ?_⟩
  · rw [hmemory₂, hmemory₁, hmemory]
  · rw [hblobs₂, hblobs₁, BasePreparedModel.requestBlobs, hmemory, hblobs]
    rfl
  · rw [hshapes₂, hshapes₁, hshapes]
  · intro sc hsc
    rcases List.mem_append.mp hsc with hsc | hsc
    · exact hmap.quiet.trace_none s sc hsc
    · rcases List.mem_append.mp hsc with hsc | hsc
      · exact (quiet_copyInputs inputs _).trace_none t sc hsc
      · obtain rfl := List.mem_singleton.mp hsc
        rfl
  · simp [Ran.after]

theorem outputPhases_error (h : s.Mapped pools)
    (hend : pm.requestOutputsEnd b pools outputs = none) :
    let run := exec (executionAnswer pm b) (outputPhases scalarDims outputs) s
    (∃ e, run.outcome = .error e) ∧
      run.state.memory = (pm.outputsEffect b pools scalarDims outputs s.outputBlobs
        (List.range outputs.length) s.memory s.mModelInfo.mOutputShapes).1 ∧
      run.state.mModelInfo.mOutputShapes =
        (pm.recordedOutputs b pools outputs (List.range outputs.length)).foldl
          (pm.shapesAfter scalarDims outputs) s.mModelInfo.mOutputShapes := by
  obtain ⟨⟨e, he⟩, hsame⟩ := @exec_copyOutputs_error pm b pools s scalarDims outputs _ h hend
  rw [outputPhases, exec_bind_error he]
  exact ⟨⟨e, rfl⟩, hsame⟩

/-- The output phases end as `requestOutputsEnd` says, and change the shapes and
the client's memory. -/
theorem outputPhases_ended (h : s.Mapped pools) {all : Bool}
    (hend : pm.requestOutputsEnd b pools outputs = some all) :
    let run := exec (executionAnswer pm b) (outputPhases scalarDims outputs) s
    let effect := pm.outputsEffect b pools scalarDims outputs s.outputBlobs
      (List.range outputs.length) s.memory s.mModelInfo.mOutputShapes
    run.state.Mapped pools ∧ run.state.memory = effect.1 ∧
      run.state.mModelInfo.mOutputShapes = effect.2 ∧
        run.outcome = .ok (if all then .completed true else .insufficient) ∧
          run.trace =
            (exec (executionAnswer pm b)
              (copyOutputs scalarDims outputs (List.range outputs.length)) s).trace ++
              if all then [(run.state, .updateRequestPoolInfos)] else [] := by
  obtain ⟨houtcome, mOperands, hstate⟩ :=
    @exec_copyOutputs pm b pools s scalarDims outputs _ h all hend
  have hmapped : SharedState.Mapped
      (exec (executionAnswer pm b) (copyOutputs scalarDims outputs (List.range outputs.length))
        s).state pools := by
    rw [hstate]
    exact h
  rw [outputPhases, exec_bind_ok houtcome]
  cases all with
  | false =>
      simp only [Bool.false_eq_true, not_false_eq_true, if_true, if_false]
      refine ⟨hmapped, ?_, ?_, rfl, rfl⟩
      · exact congrArg SharedState.memory hstate
      · exact congrArg (·.mModelInfo.mOutputShapes) hstate
  | true =>
      simp only [not_true_eq_false, if_false, if_true]
      rw [exec_perform_bind (updateRequestPoolInfos_answer hmapped)]
      refine ⟨hmapped, ?_, ?_, rfl, rfl⟩
      · exact congrArg SharedState.memory hstate
      · exact congrArg (·.mModelInfo.mOutputShapes) hstate

/-! ## All phases -/

section All

variable (hmap : MapsPools pm b pools mapPools) (hmaps : mapsAll b.maps 0 pools = true)
include hmap hmaps

/-- Where an input copy does not return, the client's memory and the shapes are
left alone. -/
theorem phases_inputsError (hinputs : ¬ pm.InputsPass b pools inputs) :
    let run := exec (executionAnswer pm b) (phases scalarDims mapPools inputs outputs) s
    (∃ e, run.outcome = .error e) ∧ run.state.memory = s.memory ∧
      run.state.mModelInfo.mOutputShapes = s.mModelInfo.mOutputShapes := by
  obtain ⟨s₁, hmapped, hmemory, -, hshapes, hphases⟩ :=
    @phases_mapped pm b pools s scalarDims mapPools inputs outputs hmap hmaps
  rw [hphases, ← hmemory, ← hshapes]
  exact inputPhases_error hmapped hinputs

/-- Nor does a failed inference change them. -/
theorem phases_notInferred (hinputs : pm.InputsPass b pools inputs) (hinfers : b.infers = false) :
    let run := exec (executionAnswer pm b) (phases scalarDims mapPools inputs outputs) s
    run.outcome = .ok .notInferred ∧ run.state.memory = s.memory ∧
      run.state.mModelInfo.mOutputShapes = s.mModelInfo.mOutputShapes := by
  obtain ⟨s₁, hmapped, hmemory, -, hshapes, hphases⟩ :=
    @phases_mapped pm b pools s scalarDims mapPools inputs outputs hmap hmaps
  obtain ⟨s₂, -, hmemory₂, -, hshapes₂, hcopied⟩ :=
    @inputPhases_copied pm b pools s₁ scalarDims inputs outputs hmapped hinputs
  rw [hphases, hcopied, inferPhases_notInferred hinfers, ← hmemory, ← hmemory₂, ← hshapes,
    ← hshapes₂]
  exact ⟨rfl, rfl, rfl⟩

variable (hinputs : pm.InputsPass b pools inputs) (hinfers : b.infers = true)
include hinputs hinfers

theorem phases_outputsError (hend : pm.requestOutputsEnd b pools outputs = none) :
    let run := exec (executionAnswer pm b) (phases scalarDims mapPools inputs outputs) s
    (∃ e, run.outcome = .error e) ∧
      run.state.memory = (pm.requestEffect b pools scalarDims inputs outputs s).1 ∧
      run.state.mModelInfo.mOutputShapes =
        (pm.recordedOutputs b pools outputs (List.range outputs.length)).foldl
          (pm.shapesAfter scalarDims outputs) s.mModelInfo.mOutputShapes := by
  obtain ⟨-, s₂, front, hmapped, hmemory, hblobs, hshapes, -, -, -, hphases⟩ :=
    @phases_inferred pm b pools s scalarDims mapPools inputs outputs hmap hmaps hinputs hinfers
  have herror := @outputPhases_error pm b pools s₂ scalarDims outputs hmapped hend
  rw [hmemory, hblobs, hshapes] at herror
  rw [hphases]
  exact herror

/-- Where the loop over the outputs ends, its effect is the execution's. -/
theorem phases_outputsEnd {all : Bool}
    (hend : pm.requestOutputsEnd b pools outputs = some all) :
    let run := exec (executionAnswer pm b) (phases scalarDims mapPools inputs outputs) s
    let effect := pm.requestEffect b pools scalarDims inputs outputs s
    run.outcome = .ok (if all then .completed true else .insufficient) ∧
      run.state.memory = effect.1 ∧ run.state.mModelInfo.mOutputShapes = effect.2 := by
  obtain ⟨-, s₂, front, hmapped, hmemory, hblobs, hshapes, -, -, -, hphases⟩ :=
    @phases_inferred pm b pools s scalarDims mapPools inputs outputs hmap hmaps hinputs hinfers
  obtain ⟨-, hmemory', hshapes', houtcome, -⟩ :=
    @outputPhases_ended pm b pools s₂ scalarDims outputs hmapped all hend
  rw [hmemory, hblobs, hshapes] at hmemory' hshapes'
  rw [hphases]
  exact ⟨houtcome, hmemory', hshapes'⟩

end All

end Phases

end NnHal
