import NnHal.History

/-!
# Where the copies write

An input copy takes its length from the client's argument and writes into a blob
whose size comes from the network.  Nothing compares the two.

An output copy compares the client's length with the blob's size, computed in 32
bits, and then writes the whole blob.  The two agree as long as the size fits in
32 bits.
-/

namespace NnHal

open Command BasePreparedModel

/-! ## How much a copy writes -/

theorem length_flatMap_of_forall {α β : Type} {f : α → List β} {n : Nat}
    (h : ∀ a, (f a).length = n) (l : List α) : (l.flatMap f).length = l.length * n := by
  induction l with
  | nil => simp
  | cons a l ih =>
      rw [List.flatMap_cons, List.length_append, h, ih, List.length_cons, Nat.succ_mul,
        Nat.add_comm]

/-- The bytes that come of so many bytes of an input. -/
def OperandType.inputLength (type : OperandType) (len : Nat) : Nat :=
  match type with
  | .tensorFloat16 => 4 * (len / 2)
  | _ => len

namespace Conversions

variable (conversions : Conversions)

theorem length_inputBytes (type : OperandType) {src : List UInt8} {len : Nat}
    (h : len ≤ src.length) :
    (conversions.inputBytes type src len).length = type.inputLength len := by
  cases type with
  | tensorFloat16 =>
      unfold inputBytes OperandType.inputLength
      rw [length_flatMap_of_forall (fun i => conversions.length_widen _), List.length_range,
        Nat.mul_comm]
  | _ => exact List.length_take_of_le h

/-- Every element of four bytes becomes one of a fixed length. -/
theorem length_outputBytes (type : OperandType) {src : List UInt8} (h : 4 ∣ src.length) :
    (conversions.outputBytes type src).length = src.length / type.narrowing := by
  rcases h with ⟨size, hsize⟩
  have hcount : src.length / 4 = size := by omega
  have hquarter : src.length / 4 * 1 = src.length / 4 := Nat.mul_one _
  have hhalf : src.length / 4 * 2 = src.length / 2 := by omega
  have helements : ∀ (f : List UInt8 → List UInt8) (n : Nat), (∀ element, (f element).length = n) →
      (((List.range (src.length / 4)).map fun i => (src.drop (4 * i)).take 4).flatMap f).length =
        src.length / 4 * n := by
    intro f n hf
    rw [length_flatMap_of_forall hf, List.length_map, List.length_range]
  unfold outputBytes OperandType.narrowing
  cases type with
  | tensorBool8 | tensorQuant8Asymm =>
      exact (helements _ 1 conversions.length_toUint8).trans hquarter
  | tensorQuant8Symm | tensorQuant8SymmPerChannel | tensorQuant8AsymmSigned =>
      exact (helements _ 1 conversions.length_toInt8).trans hquarter
  | tensorFloat16 => exact (helements _ 2 conversions.length_toFloat16).trans hhalf
  | tensorQuant16Symm => exact (helements _ 2 conversions.length_toInt16).trans hhalf
  | tensorQuant16Asymm => exact (helements _ 2 conversions.length_toUInt16).trans hhalf
  | _ => exact (Nat.div_one _).symm

end Conversions

/-! ## The copies in the run of a call -/

namespace ExecutionCmd

def inputCopy : ExecutionCmd → Option (List RequestArgument × Nat)
  | .copyInput arguments i => some (arguments, i)
  | _ => none

def outputCopy : ExecutionCmd → Option (Bool × List RequestArgument × Nat)
  | .copyOutput scalarDims arguments i => some (scalarDims, arguments, i)
  | _ => none

end ExecutionCmd

section Calls

variable {pm : BasePreparedModel} {b : Behaviour} {call : ExecuteCall} {s : SharedState}
  {U : Type} {select : ExecutionCmd → Option U} {P : SharedState → U → Prop}

/-- A selection of commands that neither map pools nor report. -/
structure Inner (select : ExecutionCmd → Option U) : Prop where
  mapping : ∀ c, c.beyondMapping = none → select c = none
  report : ∀ c, c.beforeReport = none → select c = none

theorem inner_inputCopy : Inner ExecutionCmd.inputCopy := by
  constructor
  · intro c hc
    cases c with
    | setRunTimePoolInfos pools | setRunTimeMemoryPools pools => rfl
    | _ => cases hc
  · intro c hc
    cases c with
    | getOutputShapes | notify n => rfl
    | _ => cases hc

theorem inner_outputCopy : Inner ExecutionCmd.outputCopy := by
  constructor
  · intro c hc
    cases c with
    | setRunTimePoolInfos pools | setRunTimeMemoryPools pools => rfl
    | _ => cases hc
  · intro c hc
    cases c with
    | getOutputShapes | notify n => rfl
    | _ => cases hc

/-- A call that is refused, or whose pools are not mapped, makes no copy. -/
theorem meets_unmapped (hselect : Inner select)
    (h : call.refused = true ∨ mapsAll b.maps 0 call.pools = false) :
    (exec (executionAnswer pm b) call.program s).Meets select P := by
  by_cases hrefused : call.refused = true
  · obtain ⟨n, -, hprogram⟩ := ExecuteCall.program_refused hrefused
    rw [hprogram]
    exact Quiet.meets (quiet_perform (hselect.report _ rfl)) s
  · have hmaps := h.resolve_left hrefused
    rw [Bool.not_eq_true] at hrefused
    obtain ⟨mapPools, report, hmap, hreport, hprogram⟩ := ExecuteCall.program_phases hrefused pm b
    obtain ⟨status, mRequestPoolInfos, mappings, houtcome, -, hstatus, -⟩ := hmap.returns s
    have hfails : status ≠ .none := fun hnone => by simp [hstatus.mp hnone] at hmaps
    rw [hprogram, meets_bind_quiet fun phasesEnd =>
        (hreport.only phasesEnd).mono hselect.report, phases,
      Quiet.meets_bind_ok (hmap.only.mono hselect.mapping) houtcome, if_pos hfails]
    exact Quiet.meets (quiet_pure _) _

/-- Any other call makes the copies of its phases, with the pools mapped. -/
theorem meets_mapped (hselect : Inner select) (hrefused : call.refused = false)
    (hmaps : mapsAll b.maps 0 call.pools = true) :
    ∃ s₁ : SharedState, s₁.Mapped call.pools ∧ s₁.memory = s.memory ∧
      s₁.inputBlobs = s.inputBlobs ∧
      ((exec (executionAnswer pm b) call.program s).Meets select P ↔
        (exec (executionAnswer pm b) (inputPhases call.scalarDims call.inputs call.outputs)
          s₁).Meets select P) := by
  obtain ⟨mapPools, report, hmap, hreport, hprogram⟩ := ExecuteCall.program_phases hrefused pm b
  obtain ⟨status, mRequestPoolInfos, mappings, houtcome, hstate, hstatus, htable⟩ := hmap.returns s
  obtain rfl : status = .none := hstatus.mpr hmaps
  refine ⟨{ s with mModelInfo := { s.mModelInfo with mRequestPoolInfos }, mappings }, htable rfl,
    rfl, rfl, ?_⟩
  rw [hprogram, meets_bind_quiet fun phasesEnd => (hreport.only phasesEnd).mono hselect.report,
    phases, Quiet.meets_bind_ok (hmap.only.mono hselect.mapping) houtcome, hstate]
  rfl

end Calls

/-! ## Input copies -/

/-- What an input copy writes, from the start of its blob on; `none` where it
writes nothing. -/
def SharedState.inputWritten (s : SharedState) (pm : BasePreparedModel) (b : Behaviour)
    (arguments : List RequestArgument) (i : Nat) : Option (List UInt8) :=
  if pm.inputNodeName i = "" ∨ ¬ b.getsInput i then none
  else
    match s.mModelInfo.getBlobFromMemoryPoolIn pm.mModel arguments i with
    | none => none
    | some (srcPtr, len, _) =>
        match SharedState.follow srcPtr with
        | .error _ => none
        | .ok (object, offset) =>
            some (pm.conversions.inputBytes (pm.inputType i) ((s.memory object).drop offset) len)

/-- Where a copy returns, its blob holds what it has written. -/
theorem copyInput_written {pm : BasePreparedModel} {b : Behaviour} {s s' : SharedState}
    {arguments : List RequestArgument} {i : Nat}
    (h : s.copyInput pm b arguments i = .ok ((), s')) :
    s'.inputBlobs =
      match s.inputWritten pm b arguments i with
      | none => s.inputBlobs
      | some bytes => Function.update s.inputBlobs (pm.inputNodeName i)
          (overwrite (s.inputBlobs (pm.inputNodeName i)) bytes) := by
  unfold SharedState.copyInput at h
  unfold SharedState.inputWritten
  cases hblob : s.mModelInfo.getBlobFromMemoryPoolIn pm.mModel arguments i with
  | none => simp [hblob] at h
  | some found =>
      rcases found with ⟨srcPtr, len, mModelInfo⟩
      simp only [hblob] at h ⊢
      by_cases hnamed : pm.HasName (pm.inIndex i)
      swap
      · rw [if_pos hnamed] at h
        cases h
      rw [if_neg (not_not.mpr hnamed)] at h
      by_cases hname : pm.inputNodeName i = ""
      · rw [if_pos hname] at h
        cases h
        simp [hname]
      · rw [if_neg hname] at h
        by_cases hgets : b.getsInput i = true
        · rw [if_neg (not_not.mpr hgets)] at h
          cases hfollow : SharedState.follow srcPtr with
          | error e => simp [hfollow, bind, Except.bind] at h
          | ok target =>
              simp only [hfollow, bind, Except.bind] at h
              cases h
              simp [hname, hgets]
        · rw [if_pos hgets] at h
          cases h

/-- The copy writes inside its blob. -/
def InsideBlob (pm : BasePreparedModel) (b : Behaviour) (s : SharedState)
    (copy : List RequestArgument × Nat) : Prop :=
  ∀ bytes, s.inputWritten pm b copy.1 copy.2 = some bytes →
    bytes.length ≤ (s.inputBlobs (pm.inputNodeName copy.2)).length

namespace BasePreparedModel

variable (pm : BasePreparedModel) (b : Behaviour) (pools : List HidlMemory)

/-- The inputs whose copies return, in the order of the loop. -/
def copiedInputs (inputs : List RequestArgument) : List Nat :=
  (List.range inputs.length).takeWhile fun i => pm.InputPasses b pools inputs i

/-- The argument of an input with a name is no longer than the input's blob. -/
def FitsBlob (blobs : String → List UInt8) (inputs : List RequestArgument) (i : Nat) : Prop :=
  pm.inputNodeName i ≠ "" →
    (pm.inputType i).inputLength (inputs.getD i default).location.length ≤
      (blobs (pm.inputNodeName i)).length

end BasePreparedModel

/-- The argument lies inside the memory of its pool. -/
def RequestArgument.Inside (arg : RequestArgument) (pools : List HidlMemory)
    (memory : Nat → List UInt8) : Prop :=
  arg.location.offset + arg.location.length ≤ (memory (arg.object pools)).length

instance (arg : RequestArgument) (pools : List HidlMemory) (memory : Nat → List UInt8) :
    Decidable (arg.Inside pools memory) :=
  inferInstanceAs (Decidable (_ ≤ _))

section Inputs

variable {pm : BasePreparedModel} {b : Behaviour} {pools : List HidlMemory} {s : SharedState}
  {inputs : List RequestArgument}

theorem inputWritten_of_passes (h : s.Mapped pools) {i : Nat}
    (hi : pm.InputPasses b pools inputs i) (hname : pm.inputNodeName i ≠ "") :
    s.inputWritten pm b inputs i = some (pm.inputContents pools s.memory inputs i) := by
  obtain ⟨pointer, mOperands, hpoint, hfollow⟩ := pointOperandAt_some h hi.1 (pm.inIndex i)
  have hblob : s.mModelInfo.getBlobFromMemoryPoolIn pm.mModel inputs i = _ := hpoint
  have hgets : b.getsInput i = true := hi.2.2.resolve_left hname
  unfold SharedState.inputWritten
  rw [if_neg (by simp [hname, hgets]), hblob]
  simp only [hfollow]
  rfl

theorem inputWritten_of_not_passes (h : s.Mapped pools) {i : Nat}
    (hi : ¬ pm.InputPasses b pools inputs i) : s.inputWritten pm b inputs i = none := by
  unfold SharedState.inputWritten
  by_cases hpool : (inputs.getD i default).InPools pools
  · refine if_pos ?_
    by_contra hboth
    obtain ⟨hname, hgets⟩ := not_or.mp hboth
    exact hi ⟨hpool, hasName_of_ne hname, .inr (not_not.mp hgets)⟩
  · have hblob : s.mModelInfo.getBlobFromMemoryPoolIn pm.mModel inputs i = none :=
      pointOperandAt_none h hpool _
    simp [hblob]

/-- One copy writes inside its blob when its argument fits. -/
theorem insideBlob_iff (h : s.Mapped pools) {i : Nat}
    (hinside : (inputs.getD i default).Inside pools s.memory) :
    InsideBlob pm b s (inputs, i) ↔
      (pm.InputPasses b pools inputs i → pm.FitsBlob s.inputBlobs inputs i) := by
  by_cases hi : pm.InputPasses b pools inputs i
  · by_cases hname : pm.inputNodeName i = ""
    · refine iff_of_true (fun bytes hbytes => ?_) fun _ hnamed => absurd hname hnamed
      simp [SharedState.inputWritten, hname] at hbytes
    · have hlength : (pm.inputContents pools s.memory inputs i).length =
          (pm.inputType i).inputLength (inputs.getD i default).location.length := by
        refine pm.conversions.length_inputBytes (pm.inputType i) ?_
        unfold RequestArgument.Inside at hinside
        rw [List.length_drop]
        omega
      simp only [InsideBlob, inputWritten_of_passes h hi hname, Option.some.injEq, forall_eq',
        hlength, FitsBlob, hi, hname, forall_const, ne_eq, not_false_eq_true]
  · simp [InsideBlob, inputWritten_of_not_passes h hi, hi]

/-- The loop over the inputs writes inside the blobs when the arguments it copies
fit. -/
theorem meets_copyInputs (is : List Nat) (h : s.Mapped pools)
    (hinside : ∀ i ∈ is, (inputs.getD i default).Inside pools s.memory) :
    (exec (executionAnswer pm b) (copyInputs inputs is) s).Meets ExecutionCmd.inputCopy
        (InsideBlob pm b) ↔
      ∀ i ∈ is.takeWhile fun i => pm.InputPasses b pools inputs i,
        pm.FitsBlob s.inputBlobs inputs i := by
  induction is generalizing s with
  | nil => simp [copyInputs, exec, Ran.Meets]
  | cons i is ih =>
      have hhead := @insideBlob_iff pm b pools s inputs h i (hinside i List.mem_cons_self)
      rw [copyInputs]
      by_cases hi : pm.InputPasses b pools inputs i
      · obtain ⟨mOperands, hcopy⟩ := copyInput_ok h hi
        have hanswer : executionAnswer pm b (.copyInput inputs i) s = _ := hcopy
        have hrest := @ih
          { s with
            mModelInfo := { s.mModelInfo with mOperands }
            inputBlobs := pm.inputBlobsAfter pools s.memory inputs s.inputBlobs i }
          h fun j hj => hinside j (List.mem_cons_of_mem _ hj)
        -- the blobs keep their sizes
        have hsize : ∀ name, (pm.inputBlobsAfter pools s.memory inputs s.inputBlobs i name).length =
            (s.inputBlobs name).length := by
          obtain ⟨_, _, hlength, hstate⟩ := copyInput_frame hcopy
          intro name
          rw [← hlength name]
          exact congrArg (fun state : SharedState => (state.inputBlobs name).length) hstate
        have hfits : ∀ j, pm.FitsBlob (pm.inputBlobsAfter pools s.memory inputs s.inputBlobs i)
            inputs j ↔ pm.FitsBlob s.inputBlobs inputs j := by
          intro j
          simp only [FitsBlob, hsize]
        rw [meets_perform_bind hanswer, List.takeWhile_cons_of_pos (by simpa using hi),
          List.forall_mem_cons, hrest]
        simp only [ExecutionCmd.inputCopy, Option.some.injEq, forall_eq', hhead, hi, forall_const,
          hfits]
      · obtain ⟨e, hcopy⟩ := copyInput_error h hi
        have hanswer : executionAnswer pm b (.copyInput inputs i) s = .error e := hcopy
        rw [meets_perform_bind_error hanswer, List.takeWhile_cons_of_neg (by simpa using hi)]
        simp [ExecutionCmd.inputCopy, hhead, hi]

/-- The phases after the input copies make none. -/
theorem quiet_inferPhases (scalarDims : Bool) (outputs : List RequestArgument) :
    Quiet ExecutionCmd.inputCopy (inferPhases scalarDims outputs) := by
  have hcopies : ∀ is, Quiet ExecutionCmd.inputCopy (copyOutputs scalarDims outputs is) := by
    intro is
    induction is with
    | nil => exact quiet_pure true
    | cons i is ih =>
        exact Quiet.bind (quiet_perform rfl) fun copy => quiet_ite (quiet_pure false) ih
  refine Quiet.bind (quiet_perform rfl) fun inferred => quiet_ite (quiet_pure _) ?_
  refine Quiet.bind (hcopies _) fun sufficient => quiet_ite (quiet_pure _) ?_
  exact Quiet.bind (quiet_perform rfl) fun updated => quiet_pure _

end Inputs

/-- **Input copies stay in their blobs.**  Over every call, state, system and
engine, for arguments that lie inside their pools: every input copy of the call
writes at most the bytes of its blob, exactly when the call is refused, or its
pools are not mapped, or every argument that is copied is no longer than its blob,
halves counted twice. -/
theorem inputCopies_insideBlobs_iff (pm : BasePreparedModel) (b : Behaviour) (call : ExecuteCall)
    (s : SharedState)
    (hinside : ∀ i < call.inputs.length,
      (call.inputs.getD i default).Inside call.pools s.memory) :
    (exec (executionAnswer pm b) call.program s).Meets ExecutionCmd.inputCopy
        (InsideBlob pm b) ↔
      call.refused = true ∨ mapsAll b.maps 0 call.pools = false ∨
        ∀ i ∈ pm.copiedInputs b call.pools call.inputs, pm.FitsBlob s.inputBlobs call.inputs i := by
  by_cases hearly : call.refused = true ∨ mapsAll b.maps 0 call.pools = false
  · refine iff_of_true (meets_unmapped inner_inputCopy hearly) ?_
    rcases hearly with hrefused | hmaps
    · exact .inl hrefused
    · exact .inr (.inl hmaps)
  · rw [not_or, Bool.not_eq_true, Bool.not_eq_false] at hearly
    rcases hearly with ⟨hrefused, hmaps⟩
    obtain ⟨s₁, hmapped, hmemory, hblobs, hmeets⟩ :=
      @meets_mapped pm b call s _ _ (InsideBlob pm b) inner_inputCopy hrefused hmaps
    rw [hmeets, inputPhases, meets_bind_quiet fun _ => quiet_inferPhases _ _,
      meets_copyInputs _ hmapped fun i hi => ?_, hblobs]
    · simp only [hrefused, hmaps, Bool.false_eq_true, Bool.true_eq_false, false_or]
      rfl
    · rw [hmemory]
      exact hinside i (List.mem_range.mp hi)

/-- The reshape's input fits. -/
theorem reshapeRequest_insideBlobs :
    (exec (executionAnswer reshapePreparedModel .permissive)
      (ExecuteCall.executeSynchronously true (reshapeRequest 1 2)).program reshapeStart).Meets
        ExecutionCmd.inputCopy (InsideBlob reshapePreparedModel .permissive) := by
  refine (inputCopies_insideBlobs_iff _ _ _ _ (by decide)).mpr (.inr (.inr fun i hi _ => ?_))
  have hrange : i ∈ [0] := (List.takeWhile_prefix _).subset hi
  obtain rfl := List.mem_singleton.mp hrange
  exact Nat.le_refl 4

/-- Eight bytes for a tensor of four: the request lies inside its pool, and the
copy writes past the blob. -/
theorem longRequest_leaves_blob :
    ¬ ∀ (pm : BasePreparedModel) (b : Behaviour) (call : ExecuteCall) (s : SharedState),
      (∀ i < call.inputs.length, (call.inputs.getD i default).Inside call.pools s.memory) →
        (exec (executionAnswer pm b) call.program s).Meets ExecutionCmd.inputCopy
          (InsideBlob pm b) := by
  intro h
  have hmeets := h reshapePreparedModel .permissive
    (.executeSynchronously true
      { reshapeRequest 1 2 with inputs := [{ location := { poolIndex := 0, length := 8 } }] })
    { reshapeStart with memory := fun _ => List.replicate 8 0 } (by decide)
  have hwritten := hmeets _ (List.mem_cons_of_mem _ List.mem_cons_self) _ rfl _ rfl
  exact absurd hwritten (by decide)

/-! ## Output copies -/

/-- What the copy of an output writes. -/
def SharedState.outputWritten (s : SharedState) (pm : BasePreparedModel) (i : Nat) : List UInt8 :=
  pm.conversions.outputBytes (pm.outputType i) (s.outputBlobs (pm.outputNodeName i))

/-- The bytes are written to the region of the argument and fill it, and no other
byte of any memory changes. -/
structure WritesRegion (pools : List HidlMemory) (arg : RequestArgument) (bytes : List UInt8)
    (memory memory' : Nat → List UInt8) : Prop where
  length : bytes.length = arg.location.length
  region : ∀ k < arg.location.length,
    (memory' (arg.object pools))[arg.location.offset + k]? = bytes[k]?
  outside : ∀ k, k < arg.location.offset ∨ arg.location.offset + arg.location.length ≤ k →
    (memory' (arg.object pools))[k]? = (memory (arg.object pools))[k]?
  elsewhere : ∀ object, object ≠ arg.object pools → memory' object = memory object

/-- The loop gets past the length check for the output. -/
def BasePreparedModel.PassesCheck (pm : BasePreparedModel) (b : Behaviour)
    (pools : List HidlMemory) (outputs : List RequestArgument) (i : Nat) : Prop :=
  pm.outputNodeName i ≠ "" ∧ b.getsOutput i = true ∧ (outputs.getD i default).InPools pools ∧
    pm.Sufficient outputs i

/-- The copy that passes its check writes the region of its argument; any other
one writes nothing. -/
def KeepsToRegion (pm : BasePreparedModel) (b : Behaviour) (pools : List HidlMemory)
    (s : SharedState) (copy : Bool × List RequestArgument × Nat) : Prop :=
  match s.copyOutput pm b copy.1 copy.2.1 copy.2.2 with
  | .ok (.copied, s') => WritesRegion pools (copy.2.1.getD copy.2.2 default)
      (s.outputWritten pm copy.2.2) s.memory s'.memory
  | .ok (.skipped, s') | .ok (.mismatch, s') => s'.memory = s.memory
  | .error _ => ¬ pm.PassesCheck b pools copy.2.1 copy.2.2

@[simp]
theorem length_overwriteAt (mem : List UInt8) (offset : Nat) (src : List UInt8) :
    (overwriteAt mem offset src).length = mem.length := by
  unfold overwriteAt
  rw [List.length_append, length_overwrite, List.length_take, List.length_drop]
  omega

/-- A byte of the memory after a copy that lies inside it. -/
theorem getElem?_overwriteAt {mem src : List UInt8} {offset : Nat}
    (h : offset + src.length ≤ mem.length) (k : Nat) :
    (overwriteAt mem offset src)[k]? =
      if offset ≤ k ∧ k < offset + src.length then src[k - offset]? else mem[k]? := by
  have hfront : (mem.take offset).length = offset := List.length_take_of_le (by omega)
  unfold overwriteAt
  by_cases hk : offset ≤ k
  · rw [List.getElem?_append_right (by omega), hfront, getElem?_overwrite]
    by_cases hsrc : k - offset < src.length
    · have hdest : k - offset < (mem.drop offset).length := by
        rw [List.length_drop]
        omega
      rw [if_pos hsrc, if_pos hdest, if_pos ⟨hk, by omega⟩]
    · rw [if_neg hsrc, if_neg (by omega), List.getElem?_drop]
      congr 1
      omega
  · rw [List.getElem?_append_left (by omega), List.getElem?_take_of_lt (by omega),
      if_neg (by omega)]

/-- A copy into a region that it fills. -/
theorem writesRegion_update {pools : List HidlMemory} {arg : RequestArgument}
    {memory : Nat → List UInt8} {bytes : List UInt8} (hinside : arg.Inside pools memory)
    (hlength : bytes.length = arg.location.length) :
    WritesRegion pools arg bytes memory (Function.update memory (arg.object pools)
      (overwriteAt (memory (arg.object pools)) arg.location.offset bytes)) := by
  have hfits : arg.location.offset + bytes.length ≤ (memory (arg.object pools)).length := by
    rw [hlength]
    exact hinside
  refine ⟨hlength, fun k hk => ?_, fun k hk => ?_, fun object hobject => ?_⟩
  · rw [Function.update_self, getElem?_overwriteAt hfits, if_pos (by omega)]
    congr 1
    omega
  · rw [Function.update_self, getElem?_overwriteAt hfits, if_neg (by omega)]
  · exact Function.update_of_ne hobject _ _

section Outputs

variable {pm : BasePreparedModel} {b : Behaviour} {pools : List HidlMemory} {s : SharedState}
  {scalarDims : Bool} {outputs : List RequestArgument}

/-- Past the check, the blob has as many bytes as the client expects when its
size fits in 32 bits. -/
theorem length_outputWritten_iff {i : Nat}
    (hsize : (s.outputBlobs (pm.outputNodeName i)).length = pm.outputByteSize (pm.outputNodeName i))
    (hfour : 4 ∣ pm.outputByteSize (pm.outputNodeName i)) (hlength : pm.Sufficient outputs i) :
    (s.outputWritten pm i).length = (outputs.getD i default).location.length ↔
      pm.outputByteSize (pm.outputNodeName i) < 2 ^ 32 := by
  have hwritten : (s.outputWritten pm i).length =
      pm.outputByteSize (pm.outputNodeName i) / (pm.outputType i).narrowing := by
    rw [← hsize]
    exact pm.conversions.length_outputBytes _ (hsize ▸ hfour)
  have hexpected : pm.outputByteSize (pm.outputNodeName i) % 2 ^ 32 / (pm.outputType i).narrowing =
      (outputs.getD i default).location.length := hlength
  have hnarrowing : (pm.outputType i).narrowing = 1 ∨ (pm.outputType i).narrowing = 2 ∨
      (pm.outputType i).narrowing = 4 := by
    cases pm.outputType i <;> simp [OperandType.narrowing]
  rw [hwritten, ← hexpected]
  rcases hnarrowing with h | h | h
  · rw [h]
    omega
  · rw [h]
    omega
  · rw [h]
    omega

/-- One copy keeps to its region when its blob's size fits in 32 bits. -/
theorem keepsToRegion_iff (h : s.Mapped pools) {i : Nat}
    (hsize : (s.outputBlobs (pm.outputNodeName i)).length = pm.outputByteSize (pm.outputNodeName i))
    (hfour : 4 ∣ pm.outputByteSize (pm.outputNodeName i))
    (hinside : (outputs.getD i default).Inside pools s.memory) :
    KeepsToRegion pm b pools s (scalarDims, outputs, i) ↔
      (pm.PassesCheck b pools outputs i → pm.outputByteSize (pm.outputNodeName i) < 2 ^ 32) := by
  unfold KeepsToRegion
  cases hi : pm.outputCopy b pools outputs i with
  | none =>
      obtain ⟨e, hcopy⟩ := @copyOutput_error pm b pools s h scalarDims outputs i hi
      simp only [hcopy]
      refine ⟨fun hfails hpasses => absurd hpasses hfails, fun hbound hpasses => ?_⟩
      have hends : pm.ConversionEnds i := by
        have hlt := hbound hpasses
        right
        omega
      rcases hpasses with ⟨hname, hgets, hpool, hlength⟩
      rw [outputCopy, if_neg (not_not.mpr (hasName_of_ne hname)), if_neg hname,
        if_neg (not_not.mpr hgets), if_neg (not_not.mpr hpool), if_neg (not_not.mpr hlength),
        if_pos hends] at hi
      cases hi
  | some copy =>
      obtain ⟨mOperands, hcopy⟩ := @copyOutput_ok pm b pools s h scalarDims outputs i copy hi
      simp only [hcopy]
      by_cases hname : pm.outputNodeName i = ""
      · obtain rfl : copy = .skipped := outputCopy_unnamed hname hi
        exact iff_of_true rfl fun hpasses => absurd hname hpasses.1
      · obtain ⟨hgets, hpool, ⟨rfl, hlength⟩ | ⟨rfl, hlength, -⟩⟩ := outputCopy_of_named hname hi
        · exact iff_of_true rfl fun hpasses => absurd hpasses.2.2.2 hlength
        · have hpasses : pm.PassesCheck b pools outputs i := ⟨hname, hgets, hpool, hlength⟩
          rw [← length_outputWritten_iff hsize hfour hlength]
          refine ⟨fun hwrites _ => hwrites.length, fun hwritten => ?_⟩
          exact writesRegion_update hinside (hwritten hpasses)

@[simp]
theorem length_memoryAfter (outputBlobs : String → List UInt8) (memory : Nat → List UInt8)
    (i object : Nat) :
    (pm.memoryAfter pools outputs outputBlobs memory i object).length = (memory object).length := by
  unfold memoryAfter
  by_cases hobject : object = (outputs.getD i default).object pools
  · subst hobject
    rw [Function.update_self, length_overwriteAt]
  · rw [Function.update_of_ne hobject]

/-- The loop over the outputs keeps to the regions when the sizes of the blobs it
copies fit in 32 bits. -/
theorem meets_copyOutputs (is : List Nat) (h : s.Mapped pools)
    (hsize : ∀ name, (s.outputBlobs name).length = pm.outputByteSize name)
    (hfour : ∀ name, 4 ∣ pm.outputByteSize name)
    (hinside : ∀ i ∈ is, (outputs.getD i default).Inside pools s.memory) :
    (exec (executionAnswer pm b) (copyOutputs scalarDims outputs is) s).Meets
        ExecutionCmd.outputCopy (KeepsToRegion pm b pools) ↔
      ∀ i ∈ pm.reachedOutputs b pools outputs is, pm.PassesCheck b pools outputs i →
        pm.outputByteSize (pm.outputNodeName i) < 2 ^ 32 := by
  induction is generalizing s with
  | nil => simp [copyOutputs, reachedOutputs, exec, Ran.Meets]
  | cons i is ih =>
      have hhead := @keepsToRegion_iff pm b pools s scalarDims outputs h i (hsize _) (hfour _)
        (hinside i List.mem_cons_self)
      simp only [copyOutputs, reachedOutputs]
      cases hi : pm.outputCopy b pools outputs i with
      | none =>
          obtain ⟨e, hcopy⟩ := @copyOutput_error pm b pools s h scalarDims outputs i hi
          have hanswer : executionAnswer pm b (.copyOutput scalarDims outputs i) s = .error e :=
            hcopy
          rw [meets_perform_bind_error hanswer]
          simp [ExecutionCmd.outputCopy, hhead]
      | some copy =>
          obtain ⟨mOperands, hcopy⟩ := @copyOutput_ok pm b pools s h scalarDims outputs i copy hi
          have hanswer : executionAnswer pm b (.copyOutput scalarDims outputs i) s = _ := hcopy
          rw [meets_perform_bind hanswer]
          cases copy with
          | mismatch =>
              rw [if_pos rfl]
              simp [ExecutionCmd.outputCopy, hhead, Ran.Meets, exec]
          | skipped | copied =>
              rw [if_neg (by simp), List.forall_mem_cons, ih]
              · simp [ExecutionCmd.outputCopy, hhead]
              · exact h
              · exact hsize
              · intro j hj
                have hj' := hinside j (List.mem_cons_of_mem _ hj)
                simpa [RequestArgument.Inside] using hj'

theorem quiet_copyInputs_outputCopy (inputs : List RequestArgument) (is : List Nat) :
    Quiet ExecutionCmd.outputCopy (copyInputs inputs is) := by
  induction is with
  | nil => exact quiet_pure ()
  | cons i is ih => exact Quiet.bind (quiet_perform rfl) fun _ => ih

/-- The phases that follow the mapping copy outputs once the inputs are copied and
the inference is done. -/
theorem meets_inputPhases (h : s.Mapped pools) {inputs : List RequestArgument}
    (hfour : ∀ name, 4 ∣ pm.outputByteSize name)
    (hinside : ∀ i < outputs.length, (outputs.getD i default).Inside pools s.memory) :
    (exec (executionAnswer pm b) (inputPhases scalarDims inputs outputs) s).Meets
        ExecutionCmd.outputCopy (KeepsToRegion pm b pools) ↔
      (pm.InputsPass b pools inputs → b.infers = true →
        ∀ i ∈ pm.reachedOutputs b pools outputs (List.range outputs.length),
          pm.PassesCheck b pools outputs i →
            pm.outputByteSize (pm.outputNodeName i) < 2 ^ 32) := by
  have hquiet := quiet_copyInputs_outputCopy inputs (List.range inputs.length)
  by_cases hinputs : pm.InputsPass b pools inputs
  · obtain ⟨houtcome, mOperands, hstate⟩ := exec_copyInputs _ h hinputs
    rw [inputPhases, hquiet.meets_bind_ok houtcome]
    simp only [hinputs, forall_const]
    cases hinfers : b.infers with
    | false =>
        rw [inferPhases_notInferred hinfers]
        simp [Ran.Meets, ExecutionCmd.outputCopy]
    | true =>
        obtain ⟨s₁, hmapped, hmemory, hblobs, -, hanswer, -⟩ := @inferPhases_inferred pm b pools
          (exec (executionAnswer pm b) (copyInputs inputs (List.range inputs.length)) s).state
          scalarDims outputs (by rw [hstate]; exact h) hinfers
        rw [inferPhases, meets_perform_bind hanswer, if_neg (by simp), outputPhases,
          meets_bind_quiet fun sufficient => ?_, meets_copyOutputs _ hmapped ?_ hfour ?_]
        · simp [ExecutionCmd.outputCopy]
        · intro name
          rw [hblobs, pm.length_infer]
        · intro i hi
          rw [hmemory, hstate]
          exact hinside i (List.mem_range.mp hi)
        · refine quiet_ite (quiet_pure _) ?_
          exact Quiet.bind (quiet_perform rfl) fun updated => quiet_pure _
  · obtain ⟨⟨e, he⟩, -⟩ := exec_copyInputs_error _ h hinputs
    rw [inputPhases]
    refine iff_of_true (meets_bind.mpr ⟨hquiet.meets s, fun a ha => ?_⟩) fun h => absurd h hinputs
    rw [ha] at he
    cases he

end Outputs

/-- **Output copies fill their regions.**  Over every call, state, system and
engine, for blobs of four-byte elements and arguments that lie inside their pools:
every output that passes the length check has exactly its region written, and any
other one nothing, exactly when the call does not get to its outputs or the blob of
every output that passes has a size below 2^32. -/
theorem outputCopies_keepToRegions_iff (pm : BasePreparedModel) (b : Behaviour)
    (call : ExecuteCall) (s : SharedState) (hfour : ∀ name, 4 ∣ pm.outputByteSize name)
    (hinside : ∀ i < call.outputs.length,
      (call.outputs.getD i default).Inside call.pools s.memory) :
    (exec (executionAnswer pm b) call.program s).Meets ExecutionCmd.outputCopy
        (KeepsToRegion pm b call.pools) ↔
      call.refused = true ∨ mapsAll b.maps 0 call.pools = false ∨
        (pm.InputsPass b call.pools call.inputs → b.infers = true →
          ∀ i ∈ pm.reachedOutputs b call.pools call.outputs (List.range call.outputs.length),
            pm.PassesCheck b call.pools call.outputs i →
              pm.outputByteSize (pm.outputNodeName i) < 2 ^ 32) := by
  by_cases hearly : call.refused = true ∨ mapsAll b.maps 0 call.pools = false
  · refine iff_of_true (meets_unmapped inner_outputCopy hearly) ?_
    rcases hearly with hrefused | hmaps
    · exact .inl hrefused
    · exact .inr (.inl hmaps)
  · rw [not_or, Bool.not_eq_true, Bool.not_eq_false] at hearly
    rcases hearly with ⟨hrefused, hmaps⟩
    obtain ⟨s₁, hmapped, hmemory, -, hmeets⟩ :=
      @meets_mapped pm b call s _ _ (KeepsToRegion pm b call.pools) inner_outputCopy hrefused hmaps
    rw [hmeets, meets_inputPhases hmapped hfour fun i hi => ?_]
    · simp only [hrefused, hmaps, Bool.false_eq_true, Bool.true_eq_false, false_or]
    · rw [hmemory]
      exact hinside i hi

/-- The reshape's output fills its region. -/
theorem reshapeRequest_keepsToRegion :
    (exec (executionAnswer reshapePreparedModel .permissive)
      (ExecuteCall.executeSynchronously true (reshapeRequest 1 2)).program reshapeStart).Meets
        ExecutionCmd.outputCopy
        (KeepsToRegion reshapePreparedModel .permissive (reshapeRequest 1 2).pools) := by
  refine (outputCopies_keepToRegions_iff reshapePreparedModel .permissive
    (.executeSynchronously true (reshapeRequest 1 2)) reshapeStart (fun _ => Nat.dvd_refl 4)
    (by decide)).mpr (.inr (.inr fun _ _ i _ _ => ?_))
  have hsize : 4 < 2 ^ 32 := by decide
  exact hsize

/-- A reshape of 2^30 + 1 floats, whose bytes are four too many for 32 bits. -/
def wideReshapeModel : Model :=
  { reshapeModel with
    operands := (reshapeModel.operands.set 0
      { type := .tensorFloat32, dimensions := [2 ^ 30 + 1], lifetime := .subgraphInput }).set 2
      { type := .tensorFloat32, dimensions := [2 ^ 30 + 1], lifetime := .subgraphOutput } }

/-- A client's buffer of four bytes passes the check of an output of 2^32 + 4. -/
theorem wideOutput_leaves_region :
    ¬ ∀ (pm : BasePreparedModel) (b : Behaviour) (call : ExecuteCall) (s : SharedState),
      (∀ name, 4 ∣ pm.outputByteSize name) →
      (∀ i < call.outputs.length, (call.outputs.getD i default).Inside call.pools s.memory) →
        (exec (executionAnswer pm b) call.program s).Meets ExecutionCmd.outputCopy
          (KeepsToRegion pm b call.pools) := by
  intro h
  have hmeets := h
    { reshapePreparedModel with
      mModel := wideReshapeModel
      outputByteSize := fun _ => 2 ^ 32 + 4
      infer := fun _ _ => List.replicate (2 ^ 32 + 4) 0
      length_infer := fun _ _ => List.length_replicate }
    .permissive (.executeSynchronously true (reshapeRequest 1 2))
    { reshapeStart with inputBlobs := fun _ => List.replicate (2 ^ 32 + 4) 0 }
    (fun _ => ⟨2 ^ 30 + 1, rfl⟩) (by decide)
  have hwrites : WritesRegion _ _ _ _ _ := hmeets _
    (List.mem_cons_of_mem _ (List.mem_cons_of_mem _ (List.mem_cons_of_mem _ List.mem_cons_self)))
    _ rfl
  have hlength : (List.replicate (2 ^ 32 + 4) (0 : UInt8)).length = 4 := hwrites.length
  rw [List.length_replicate] at hlength
  omega

end NnHal
