import NnHal.CopyBounds
import NnHal.ThreePaths

/-!
# What the length check reports

An output whose length does not match is recorded as insufficient, and the
execution ends with OUTPUT_INSUFFICIENT_SIZE.  The three paths compare with `!=`:
a client's buffer that is longer than the output is reported as insufficient, too.
-/

namespace NnHal

open Command BasePreparedModel

/-- The run gets to the length check of the output: it comes to the output's copy,
the output has a name, `getBlob` returns and the argument is in a pool. -/
structure ChecksLength (pm : BasePreparedModel) (b : Behaviour) (call : ExecuteCall)
    (s : SharedState) (i : Nat) : Prop where
  reached : ∃ s₁, (s₁, .copyOutput call.scalarDims call.outputs i) ∈
    (exec (executionAnswer pm b) call.program s).trace
  named : pm.outputNodeName i ≠ ""
  gets : b.getsOutput i = true
  inPools : (call.outputs.getD i default).InPools call.pools

/-- The run records the output as insufficient, and its callback is told so. -/
structure ReportsInsufficient (pm : BasePreparedModel) (b : Behaviour) (call : ExecuteCall)
    (s : SharedState) (i : Nat) : Prop where
  recorded : ((exec (executionAnswer pm b) call.program s).state.mModelInfo.mOutputShapes.getD i
    default).isSufficient = false
  notified : ∃ n ∈ (exec (executionAnswer pm b) call.program s).selected
    ExecutionCmd.notification, n.status = .outputInsufficientSize

/-- The length of the client's buffer for an output. -/
def ExecuteCall.bufferLength (call : ExecuteCall) (i : Nat) : Nat :=
  (call.outputs.getD i default).location.length

theorem OutputShape.update_isSufficient (shape : OutputShape) (dims : List Nat) (ok : Bool) :
    (shape.update dims ok).2.isSufficient = ok := by
  unfold OutputShape.update
  split <;> rfl

section Loop

variable {pm : BasePreparedModel} {b : Behaviour} {pools : List HidlMemory} {s : SharedState}
  {scalarDims : Bool} {outputs : List RequestArgument}

theorem reachedOutputs_subset (is : List Nat) : pm.reachedOutputs b pools outputs is ⊆ is := by
  induction is with
  | nil => exact List.nil_subset []
  | cons i is ih =>
      simp only [reachedOutputs]
      cases pm.outputCopy b pools outputs i with
      | none => exact List.cons_subset_cons i (List.nil_subset is)
      | some copy =>
          cases copy with
          | mismatch => exact List.cons_subset_cons i (List.nil_subset is)
          | skipped | copied => exact List.cons_subset_cons i ih

/-- A mismatch that is reached ends the loop. -/
theorem outputsEnd_of_mismatch {is : List Nat} {i : Nat}
    (hi : i ∈ pm.reachedOutputs b pools outputs is)
    (hcopy : pm.outputCopy b pools outputs i = some .mismatch) :
    pm.outputsEnd b pools outputs is = some false := by
  induction is with
  | nil => cases hi
  | cons j is ih =>
      simp only [reachedOutputs] at hi
      simp only [outputsEnd]
      cases hj : pm.outputCopy b pools outputs j with
      | none =>
          rw [hj] at hi
          obtain rfl := List.mem_singleton.mp hi
          rw [hj] at hcopy
          cases hcopy
      | some copy =>
          rw [hj] at hi
          cases copy with
          | mismatch => rfl
          | skipped | copied =>
              rcases List.mem_cons.mp hi with rfl | hi
              · rw [hj] at hcopy
                cases hcopy
              · exact ih hi

/-- The loop over the outputs comes to no output but those it reaches. -/
theorem meets_reachedOutputs {is reached : List Nat} (h : s.Mapped pools)
    (hsubset : pm.reachedOutputs b pools outputs is ⊆ reached) :
    (exec (executionAnswer pm b) (copyOutputs scalarDims outputs is) s).Meets
      ExecutionCmd.outputCopy fun _ copy => copy.2.2 ∈ reached := by
  induction is generalizing s with
  | nil =>
      intro sc hsc
      cases hsc
  | cons i is ih =>
      simp only [reachedOutputs] at hsubset
      have hhead : i ∈ reached := by
        apply hsubset
        split <;> exact List.mem_cons_self
      have hcopies : ∀ copy, ExecutionCmd.outputCopy (.copyOutput scalarDims outputs i) =
          some copy → copy.2.2 ∈ reached := by
        intro copy hcopy
        obtain rfl := Option.some.inj hcopy
        exact hhead
      rw [copyOutputs]
      cases hi : pm.outputCopy b pools outputs i with
      | none =>
          obtain ⟨e, hcopy⟩ := @copyOutput_error pm b pools s h scalarDims outputs i hi
          have hanswer : executionAnswer pm b (.copyOutput scalarDims outputs i) s = .error e :=
            hcopy
          rw [meets_perform_bind_error hanswer]
          exact hcopies
      | some copy =>
          obtain ⟨mOperands, hcopy⟩ := @copyOutput_ok pm b pools s h scalarDims outputs i copy hi
          have hanswer : executionAnswer pm b (.copyOutput scalarDims outputs i) s = _ := hcopy
          rw [meets_perform_bind hanswer]
          rw [hi] at hsubset
          refine ⟨hcopies, ?_⟩
          cases copy with
          | mismatch => exact Quiet.meets (quiet_pure false) _
          | skipped | copied => exact ih h fun j hj => hsubset (List.mem_cons_of_mem _ hj)

end Loop

section Checks

variable {pm : BasePreparedModel} {b : Behaviour} {call : ExecuteCall} {s : SharedState} {i : Nat}

theorem TellsStatus.of_report {report : PhasesEnd → Execution Unit}
    (h : report = asyncReport ∨ report = syncReport ∨ report = fencedReport) :
    TellsStatus report := by
  rcases h with rfl | rfl | rfl
  · exact asyncReport_tellsStatus
  · exact syncReport_tellsStatus
  · exact fencedReport_tellsStatus

/-- An execution that checks a length has mapped its pools, copied its inputs and
inferred, and its loop over the outputs comes to the output. -/
theorem ChecksLength.inferred (h : ChecksLength pm b call s i) :
    call.refused = false ∧ mapsAll b.maps 0 call.pools = true ∧
      pm.InputsPass b call.pools call.inputs ∧ b.infers = true ∧
        i ∈ pm.reachedOutputs b call.pools call.outputs (List.range call.outputs.length) := by
  rcases h.reached with ⟨s₁, htrace⟩
  -- a command in the trace satisfies what all of them do
  have hmeets : ∀ P : SharedState → Bool × List RequestArgument × Nat → Prop,
      (exec (executionAnswer pm b) call.program s).Meets ExecutionCmd.outputCopy P →
        P s₁ (call.scalarDims, call.outputs, i) := fun P hP => hP _ htrace _ rfl
  by_cases hearly : call.refused = true ∨ mapsAll b.maps 0 call.pools = false
  · exact (hmeets (fun _ _ => False) (meets_unmapped inner_outputCopy hearly)).elim
  · rw [not_or, Bool.not_eq_true, Bool.not_eq_false] at hearly
    rcases hearly with ⟨hrefused, hmaps⟩
    have hinner : ∀ P : SharedState → Bool × List RequestArgument × Nat → Prop,
        (∀ s₁ : SharedState, s₁.Mapped call.pools →
          (exec (executionAnswer pm b) (inputPhases call.scalarDims call.inputs call.outputs)
            s₁).Meets ExecutionCmd.outputCopy P) → P s₁ (call.scalarDims, call.outputs, i) := by
      intro P hP
      obtain ⟨s₂, hmapped, -, -, hiff⟩ :=
        @meets_mapped pm b call s _ _ P inner_outputCopy hrefused hmaps
      exact hmeets P (hiff.mpr (hP s₂ hmapped))
    refine ⟨hrefused, hmaps, hinner (fun _ copy => pm.InputsPass b call.pools call.inputs ∧
      b.infers = true ∧ copy.2.2 ∈ pm.reachedOutputs b call.pools call.outputs
        (List.range call.outputs.length)) ?_⟩
    intro s₂ hmapped
    have hquiet := quiet_copyInputs_outputCopy call.inputs (List.range call.inputs.length)
    rw [inputPhases]
    by_cases hinputs : pm.InputsPass b call.pools call.inputs
    · obtain ⟨houtcome, mOperands, hstate⟩ := exec_copyInputs _ hmapped hinputs
      rw [hquiet.meets_bind_ok houtcome]
      cases hinfers : b.infers with
      | false =>
          rw [inferPhases_notInferred hinfers]
          simp [Ran.Meets, ExecutionCmd.outputCopy]
      | true =>
          obtain ⟨s₃, hmapped₃, -, -, -, hanswer, -⟩ := @inferPhases_inferred pm b call.pools
            (exec (executionAnswer pm b) (copyInputs call.inputs (List.range call.inputs.length))
              s₂).state call.scalarDims call.outputs (by rw [hstate]; exact hmapped) hinfers
          rw [inferPhases, meets_perform_bind hanswer, if_neg (by simp), outputPhases,
            meets_bind_quiet fun sufficient => ?_]
          · refine ⟨fun copy hcopy => ?_, fun sc hsc copy hcopy => ⟨hinputs, rfl, ?_⟩⟩
            · cases hcopy
            exact meets_reachedOutputs hmapped₃ (List.Subset.refl _) sc hsc copy hcopy
          · refine quiet_ite (quiet_pure _) ?_
            exact Quiet.bind (quiet_perform rfl) fun updated => quiet_pure _
    · obtain ⟨⟨e, he⟩, -⟩ := exec_copyInputs_error _ hmapped hinputs
      rw [exec_bind_error he]
      exact fun sc hsc copy hcopy => absurd (hquiet.trace_none s₂ sc hsc) (by simp [hcopy])

/-- What the check reports: a length that differs. -/
theorem reportsInsufficient_iff_ne (h : ChecksLength pm b call s i)
    (hshapes : call.outputs.length ≤ s.mModelInfo.mOutputShapes.length) :
    ReportsInsufficient pm b call s i ↔ pm.actualLength i ≠ call.bufferLength i := by
  rcases h.inferred with ⟨hrefused, hmaps, hinputs, hinfers, hreached⟩
  obtain ⟨mapPools, report, hmap, hreport, hprogram⟩ :=
    ExecuteCall.program_report hrefused pm b
  have htells := TellsStatus.of_report (hreport.imp And.left (Or.imp And.left And.left))
  have hsilent := (quiet_phases hmap call.scalarDims call.inputs call.outputs).selected_nil
    (executionAnswer pm b) s
  have hmismatch : ¬ pm.Sufficient call.outputs i →
      pm.requestOutputsEnd b call.pools call.outputs = some false := by
    intro hlength
    refine outputsEnd_of_mismatch hreached ?_
    unfold outputCopy
    rw [if_neg (not_not.mpr (hasName_of_ne h.named)), if_neg h.named,
      if_neg (not_not.mpr h.gets), if_neg (not_not.mpr h.inPools), if_pos hlength]
  have hbound : i < s.mModelInfo.mOutputShapes.length := by
    have hrange := List.mem_range.mp (reachedOutputs_subset _ hreached)
    omega
  have hdiffers : pm.actualLength i ≠ call.bufferLength i ↔ ¬ pm.Sufficient call.outputs i :=
    Iff.rfl
  rw [hdiffers]
  cases hend : pm.requestOutputsEnd b call.pools call.outputs with
  | none =>
      -- a copy stops, and nothing is told
      obtain ⟨⟨e, he⟩, -⟩ := @phases_outputsError pm b call.pools s call.scalarDims mapPools
        call.inputs call.outputs hmap hmaps hinputs hinfers hend
      refine iff_of_false ?_ fun hlength => ?_
      · intro hboth
        rcases hboth with ⟨-, n, hn, -⟩
        rw [hprogram, exec_bind_error he] at hn
        rw [Ran.selected] at hn hsilent
        simp [hsilent] at hn
      · rw [hmismatch hlength] at hend
        cases hend
  | some all =>
      obtain ⟨houtcome, -, hrecorded⟩ := @phases_outputsEnd pm b call.pools s call.scalarDims
        mapPools call.inputs call.outputs hmap hmaps hinputs hinfers all hend
      have husual : (if all then PhasesEnd.completed true else .insufficient).Usual := by
        cases all
        · trivial
        · rfl
      obtain ⟨hstatus, hstate⟩ := htells pm b _ (exec (executionAnswer pm b)
        (phases call.scalarDims mapPools call.inputs call.outputs) s).state husual
      have hsufficient : ((exec (executionAnswer pm b) call.program
          s).state.mModelInfo.mOutputShapes.getD i default).isSufficient =
            decide (pm.Sufficient call.outputs i) := by
        rw [hprogram, exec_bind_ok houtcome, Ran.state_after, hstate, hrecorded, requestEffect,
          outputsEffect_snd, getD_foldl_shapesAfter_self _ ?_ hreached,
          pm.getD_shapesAfter_self _ _ _ h.named hbound, OutputShape.update_isSufficient]
        rw [← pm.recordedOutputs_eq b call.pools call.outputs
          (by rw [requestOutputsEnd] at hend; simp [hend])]
        exact (pm.recordedOutputs_sublist b _ _ _).nodup List.nodup_range
      constructor
      · intro hboth
        rcases hboth with ⟨hfalse, -⟩
        rw [hsufficient] at hfalse
        exact of_decide_eq_false hfalse
      · intro hlength
        obtain rfl : all = false := by
          rw [hmismatch hlength] at hend
          exact (Option.some.inj hend).symm
        refine ⟨by rw [hsufficient]; exact decide_eq_false hlength, ?_⟩
        have hmem : ErrorStatus.outputInsufficientSize ∈
            ((exec (executionAnswer pm b) call.program s).selected
              ExecutionCmd.notification).map (·.status) := by
          rw [hprogram, exec_bind_ok houtcome, Ran.selected_after, List.map_append, hstatus]
          exact List.mem_append_right _ List.mem_cons_self
        obtain ⟨n, hn, hstatus⟩ := List.mem_map.mp hmem
        exact ⟨n, hn, hstatus⟩

end Checks

/-- **The length check.**  In every run of every call that gets to the check of an
output, in a state with a shape for each output of the request: that the output is
reported insufficient exactly when its length exceeds the client's buffer holds
exactly when the buffer is no longer than the output. -/
theorem reportsInsufficient_exceeds_iff (pm : BasePreparedModel) (b : Behaviour)
    (call : ExecuteCall) (s : SharedState)
    (hshapes : call.outputs.length ≤ s.mModelInfo.mOutputShapes.length) (i : Nat)
    (hchecks : ChecksLength pm b call s i) :
    (ReportsInsufficient pm b call s i ↔ call.bufferLength i < pm.actualLength i) ↔
      call.bufferLength i ≤ pm.actualLength i := by
  rw [reportsInsufficient_iff_ne hchecks hshapes]
  omega

/-- The run of the reshape gets to the check of its output. -/
theorem reshapeRequest_checksLength :
    ChecksLength reshapePreparedModel .permissive
      (.executeSynchronously true (reshapeRequest 1 2)) reshapeStart 0 where
  reached := ⟨_, List.mem_cons_of_mem _ (List.mem_cons_of_mem _ (List.mem_cons_of_mem _
    List.mem_cons_self))⟩
  named := by decide
  gets := rfl
  inPools := by decide

theorem reshapeRequest_exceeds :
    (ReportsInsufficient reshapePreparedModel .permissive
        (.executeSynchronously true (reshapeRequest 1 2)) reshapeStart 0 ↔
      (ExecuteCall.executeSynchronously true (reshapeRequest 1 2)).bufferLength 0 <
        reshapePreparedModel.actualLength 0) ↔
      (ExecuteCall.executeSynchronously true (reshapeRequest 1 2)).bufferLength 0 ≤
        reshapePreparedModel.actualLength 0 :=
  reportsInsufficient_exceeds_iff _ _ _ _ (by decide) 0 reshapeRequest_checksLength

/-- The request of the reshape with a buffer of eight bytes for its four. -/
def roomyRequest : Request HidlMemory :=
  { reshapeRequest 1 2 with outputs := [{ location := { poolIndex := 1, length := 8 } }] }

/-- A buffer of eight bytes for four of output is reported as insufficient. -/
theorem roomyRequest_insufficient :
    ¬ ∀ (pm : BasePreparedModel) (b : Behaviour) (call : ExecuteCall) (s : SharedState),
      call.outputs.length ≤ s.mModelInfo.mOutputShapes.length → ∀ i,
        ChecksLength pm b call s i →
          (ReportsInsufficient pm b call s i ↔ call.bufferLength i < pm.actualLength i) := by
  intro h
  have hchecks : ChecksLength reshapePreparedModel .permissive
      (.executeSynchronously true roomyRequest) reshapeStart 0 :=
    { reached := ⟨_, List.mem_cons_of_mem _ (List.mem_cons_of_mem _ (List.mem_cons_of_mem _
        List.mem_cons_self))⟩
      named := by decide
      gets := rfl
      inPools := by decide }
  have hreports : ReportsInsufficient reshapePreparedModel .permissive
      (.executeSynchronously true roomyRequest) reshapeStart 0 :=
    ⟨rfl, ⟨_, List.mem_cons_self, rfl⟩⟩
  have hexceeds := (h reshapePreparedModel .permissive
    (.executeSynchronously true roomyRequest) reshapeStart (by decide) 0 hchecks).mp hreports
  exact absurd hexceeds (by decide)

end NnHal
