import NnHal.ExecutionPhases

/-!
# What an execution delivers

An execution goes through its phases and reports their end to the callback.
Only `infer` is called inside a `try`: an exception of `getBlob` leaves the
execution before anything has been reported.  And the report does not look at
everything: outputs without a name are passed over, and the results of the
single pool updates are dropped.
-/

namespace NnHal

open Command BasePreparedModel

/-! ## The calls -/

/-- A call that executes a request, with the answers of the framework's checks. -/
inductive ExecuteCall
  | execute (valid : Bool) (request : Request HidlMemory)
  | execute_1_2 (valid : Bool) (request : Request HidlMemory)
  | execute_1_3 (valid : Bool) (request : Request MemoryPool)
  | executeSynchronously (valid : Bool) (request : Request HidlMemory)
  | executeSynchronously_1_3 (valid : Bool) (request : Request MemoryPool)
  | executeFenced (valid deadlinePassed : Bool) (fences : List Fence)
      (request : Request MemoryPool)

namespace ExecuteCall

def program : ExecuteCall → Execution Unit
  | .execute valid request => BasePreparedModel.execute valid request
  | .execute_1_2 valid request => BasePreparedModel.execute_1_2 valid request
  | .execute_1_3 valid request => BasePreparedModel.execute_1_3 valid request
  | .executeSynchronously valid request => BasePreparedModel.executeSynchronously valid request
  | .executeSynchronously_1_3 valid request =>
      BasePreparedModel.executeSynchronously_1_3 valid request
  | .executeFenced valid deadlinePassed fences request =>
      BasePreparedModel.executeFenced valid deadlinePassed fences request

/-- The request is refused before its pools are mapped. -/
def refused : ExecuteCall → Bool
  | .execute valid _ | .execute_1_2 valid _ | .execute_1_3 valid _
  | .executeSynchronously valid _ | .executeSynchronously_1_3 valid _ => ¬ valid
  | .executeFenced valid deadlinePassed fences _ =>
      ¬ valid || deadlinePassed || waitFor fences ≠ .none

def pools : ExecuteCall → List HidlMemory
  | .execute _ request | .execute_1_2 _ request | .executeSynchronously _ request => request.pools
  | .execute_1_3 _ request | .executeSynchronously_1_3 _ request | .executeFenced _ _ _ request =>
      request.pools.map MemoryPool.convertToV1_0

def inputs : ExecuteCall → List RequestArgument
  | .execute _ request | .execute_1_2 _ request | .executeSynchronously _ request => request.inputs
  | .execute_1_3 _ request | .executeSynchronously_1_3 _ request | .executeFenced _ _ _ request =>
      request.inputs

def outputs : ExecuteCall → List RequestArgument
  | .execute _ request | .execute_1_2 _ request | .executeSynchronously _ request => request.outputs
  | .execute_1_3 _ request | .executeSynchronously_1_3 _ request | .executeFenced _ _ _ request =>
      request.outputs

/-- `executeFenced` records the dimensions as they are. -/
def scalarDims : ExecuteCall → Bool
  | .executeFenced _ _ _ _ => false
  | _ => true

end ExecuteCall

/-- Executions, one after the other.  One may stop anywhere; the runs include
those in which the process goes on. -/
def runExecutions (pm : BasePreparedModel) (s : SharedState)
    (executions : List (Behaviour × ExecuteCall)) : SharedState :=
  executions.foldl
    (fun s execution => (exec (executionAnswer pm execution.1) execution.2.program s).state) s

/-! ## What is delivered -/

def ExecutionCmd.notification : ExecutionCmd → Option ExecutionNotification
  | .notify n => some n
  | _ => none

/-- A notification of NONE. -/
def ExecutionCmd.success : ExecutionCmd → Option ExecutionNotification
  | .notify n => if n.status = .none then some n else none
  | _ => none

/-- The execution has done what the status NONE says: it inferred, copied every
output and updated every pool. -/
structure Backed (pm : BasePreparedModel) (b : Behaviour) (call : ExecuteCall)
    (run : Ran SharedState ExecutionCmd ExecutionStop Unit) : Prop where
  inferred : ∃ s s', (s, .infer) ∈ run.trace ∧ executionAnswer pm b .infer s = .ok (true, s')
  copied : ∀ i < call.outputs.length, ∃ s s',
    (s, .copyOutput call.scalarDims call.outputs i) ∈ run.trace ∧
      executionAnswer pm b (.copyOutput call.scalarDims call.outputs i) s = .ok (.copied, s')
  updated : ∃ s, (s, .updateRequestPoolInfos) ∈ run.trace ∧
    ∀ i (poolInfo : RunTimePoolInfo), s.mModelInfo.mRequestPoolInfos[i]? = some poolInfo →
      poolInfo.update (b.syncs i) = some true

/-- The callback hears of the execution once, and NONE only when it is backed. -/
structure DeliversOnce (pm : BasePreparedModel) (b : Behaviour) (call : ExecuteCall)
    (run : Ran SharedState ExecutionCmd ExecutionStop Unit) : Prop where
  once : ∃ n, run.selected ExecutionCmd.notification = [n]
  backed : ∀ n ∈ run.selected ExecutionCmd.notification, n.status = .none → Backed pm b call run

/-- Every input copy returns, and the execution does not come to its end with an
output that has no name or a pool whose update fails. -/
def DeliversWhen (pm : BasePreparedModel) (b : Behaviour) (call : ExecuteCall) : Prop :=
  pm.InputsPass b call.pools call.inputs ∧
    (b.infers = false ∨ pm.requestOutputsEnd b call.pools call.outputs = some false ∨
      pm.requestOutputsEnd b call.pools call.outputs = some true ∧
        (∀ i < call.outputs.length, pm.outputNodeName i ≠ "") ∧
          ∀ i < call.pools.length, (call.pools.getD i default).updates (b.syncs i) = true)

/-! ## The reports -/

/-- A report notifies once, and issues no command of an earlier phase; only a
completed execution is reported with NONE, and one whose pools were updated
is. -/
structure Reports (report : PhasesEnd → Execution Unit) : Prop where
  once : ∀ pm b phasesEnd s, phasesEnd ≠ .unmapped .none → ∃ n,
    (exec (executionAnswer pm b) (report phasesEnd) s).selected ExecutionCmd.notification = [n] ∧
      (n.status = .none → ∃ updated, phasesEnd = .completed updated) ∧
        (phasesEnd = .completed true → n.status = .none)
  only : ∀ phasesEnd, Quiet ExecutionCmd.beforeReport (report phasesEnd)
  early : ∀ phasesEnd, phasesEnd ≠ .unmapped .none →
    (∀ updated, phasesEnd ≠ .completed updated) → Quiet ExecutionCmd.success (report phasesEnd)

theorem Reports.noUpdate {report : PhasesEnd → Execution Unit} (h : Reports report)
    (pm : BasePreparedModel) (b : Behaviour) (phasesEnd : PhasesEnd) (s : SharedState) :
    ∀ sc ∈ (exec (executionAnswer pm b) (report phasesEnd) s).trace,
      sc.2 ≠ .updateRequestPoolInfos := by
  intro sc hsc hupdate
  have hnone := (h.only phasesEnd).trace_none s sc hsc
  rw [hupdate] at hnone
  cases hnone

namespace BasePreparedModel

/-- The report of `asyncExecute`. -/
def asyncReport : PhasesEnd → Execution Unit
  | .unmapped _ | .notInferred => issue (.notify { status := .generalFailure })
  | .insufficient => do
      let outputShapes ← issue .getOutputShapes
      issue (.notify { status := .outputInsufficientSize, outputShapes })
  | .completed _ => do
      let outputShapes ← issue .getOutputShapes
      issue (.notify { status := .none, outputShapes })

/-- What `executeSynchronously` reports of `executeSynchronouslyBase`. -/
def syncReport : PhasesEnd → Execution Unit
  | .unmapped _ | .notInferred | .completed false =>
      issue (.notify { status := .generalFailure })
  | .insufficient => do
      let outputShapes ← issue .getOutputShapes
      issue (.notify { status := .outputInsufficientSize, outputShapes })
  | .completed true => do
      let outputShapes ← issue .getOutputShapes
      issue (.notify { status := .none, outputShapes })

/-- The report of `executeFenced`. -/
def fencedReport : PhasesEnd → Execution Unit
  | .unmapped errorStatus => issue (.notify { status := errorStatus })
  | .notInferred => issue (.notify { status := .generalFailure })
  | .insufficient => issue (.notify { status := .outputInsufficientSize })
  | .completed _ => issue (.notify { status := .none })

end BasePreparedModel

theorem asyncReport_reports : Reports asyncReport where
  once pm b phasesEnd s _ := by
    cases phasesEnd with
    | unmapped status | notInferred | insufficient =>
        exact ⟨_, rfl, nofun, nofun⟩
    | completed updated => exact ⟨_, rfl, fun _ => ⟨updated, rfl⟩, fun _ => rfl⟩
  only phasesEnd := by
    cases phasesEnd with
    | unmapped status | notInferred => exact quiet_perform rfl
    | insufficient | completed updated =>
        exact Quiet.bind (quiet_perform rfl) fun outputShapes => quiet_perform rfl
  early phasesEnd _ hearly := by
    cases phasesEnd with
    | unmapped status | notInferred => exact quiet_perform rfl
    | insufficient => exact Quiet.bind (quiet_perform rfl) fun outputShapes => quiet_perform rfl
    | completed updated => exact absurd rfl (hearly updated)

theorem syncReport_reports : Reports syncReport where
  once pm b phasesEnd s _ := by
    cases phasesEnd with
    | unmapped status | notInferred | insufficient =>
        exact ⟨_, rfl, nofun, nofun⟩
    | completed updated =>
        cases updated with
        | false => exact ⟨_, rfl, nofun, nofun⟩
        | true => exact ⟨_, rfl, fun _ => ⟨true, rfl⟩, fun _ => rfl⟩
  only phasesEnd := by
    cases phasesEnd with
    | unmapped status | notInferred => exact quiet_perform rfl
    | insufficient => exact Quiet.bind (quiet_perform rfl) fun outputShapes => quiet_perform rfl
    | completed updated =>
        cases updated with
        | false => exact quiet_perform rfl
        | true => exact Quiet.bind (quiet_perform rfl) fun outputShapes => quiet_perform rfl
  early phasesEnd _ hearly := by
    cases phasesEnd with
    | unmapped status | notInferred => exact quiet_perform rfl
    | insufficient => exact Quiet.bind (quiet_perform rfl) fun outputShapes => quiet_perform rfl
    | completed updated => exact absurd rfl (hearly updated)

theorem fencedReport_reports : Reports fencedReport where
  once pm b phasesEnd s hmapped := by
    cases phasesEnd with
    | unmapped status =>
        refine ⟨_, rfl, fun h => ?_, nofun⟩
        obtain rfl : status = .none := h
        exact absurd rfl hmapped
    | notInferred | insufficient => exact ⟨_, rfl, nofun, nofun⟩
    | completed updated => exact ⟨_, rfl, fun _ => ⟨updated, rfl⟩, fun _ => rfl⟩
  only phasesEnd := by
    cases phasesEnd <;> exact quiet_perform rfl
  early phasesEnd hmapped hearly := by
    cases phasesEnd with
    | unmapped status =>
        have hfails : status ≠ .none := fun hnone => hmapped (congrArg _ hnone)
        exact quiet_perform (if_neg hfails)
    | notInferred | insufficient => exact quiet_perform rfl
    | completed updated => exact absurd rfl (hearly updated)

/-! ## The calls, as phases and a report -/

/-- A refused call notifies of the refusal and does nothing else. -/
theorem ExecuteCall.program_refused {call : ExecuteCall} (h : call.refused = true) :
    ∃ n : ExecutionNotification, n.status ≠ .none ∧
      call.program = BasePreparedModel.issue (.notify n) := by
  cases call with
  | execute valid request | execute_1_2 valid request | execute_1_3 valid request
  | executeSynchronously valid request | executeSynchronously_1_3 valid request =>
      obtain rfl : valid = false := by simpa [ExecuteCall.refused] using h
      exact ⟨{ status := .invalidArgument }, by decide, rfl⟩
  | executeFenced valid deadlinePassed fences request =>
      cases valid with
      | false => exact ⟨{ status := .invalidArgument }, by decide, rfl⟩
      | true =>
          cases deadlinePassed with
          | true => exact ⟨{ status := .missedDeadlinePersistent }, by decide, rfl⟩
          | false =>
              have hwait : waitFor fences ≠ .none := by simpa [ExecuteCall.refused] using h
              refine ⟨{ status := waitFor fences }, hwait, ?_⟩
              exact if_pos hwait

theorem executeSynchronously_eq (request : Request HidlMemory) :
    BasePreparedModel.executeSynchronously true request = phases_1_0 request >>= syncReport := by
  have hpair : BasePreparedModel.executeSynchronously true request =
      executeSynchronouslyBase request >>= fun answer =>
        BasePreparedModel.issue (.notify ⟨answer.1, answer.2⟩) := rfl
  rw [hpair, executeSynchronouslyBase, Prog.bind_assoc]
  congr 1
  funext phasesEnd
  cases phasesEnd with
  | unmapped status | notInferred | insufficient => rfl
  | completed updated => cases updated <;> rfl

/-- Any other call goes through the phases, and reports in one of three ways; the fenced one records
no shape for a scalar. -/
theorem ExecuteCall.program_report {call : ExecuteCall} (h : call.refused = false)
    (pm : BasePreparedModel) (b : Behaviour) :
    ∃ mapPools report, MapsPools pm b call.pools mapPools ∧
      (report = asyncReport ∧ call.scalarDims = true ∨
        report = syncReport ∧ call.scalarDims = true ∨
          report = fencedReport ∧ call.scalarDims = false) ∧
        call.program =
          phases call.scalarDims mapPools call.inputs call.outputs >>= report := by
  cases call with
  | execute valid request | execute_1_2 valid request =>
      obtain rfl : valid = true := by simpa [ExecuteCall.refused] using h
      exact ⟨_, asyncReport, mapsPools_hidlMemories pm b _, .inl ⟨rfl, rfl⟩, rfl⟩
  | execute_1_3 valid request =>
      obtain rfl : valid = true := by simpa [ExecuteCall.refused] using h
      exact ⟨_, asyncReport, mapsPools_hidlMemories pm b _, .inl ⟨rfl, rfl⟩, rfl⟩
  | executeSynchronously valid request =>
      obtain rfl : valid = true := by simpa [ExecuteCall.refused] using h
      refine ⟨_, syncReport, mapsPools_hidlMemories pm b _, .inr (.inl ⟨rfl, rfl⟩), ?_⟩
      exact executeSynchronously_eq request
  | executeSynchronously_1_3 valid request =>
      obtain rfl : valid = true := by simpa [ExecuteCall.refused] using h
      refine ⟨_, syncReport, mapsPools_hidlMemories pm b _, .inr (.inl ⟨rfl, rfl⟩), ?_⟩
      exact executeSynchronously_eq request.convertToV1_0
  | executeFenced valid deadlinePassed fences request =>
      have hpassed : valid = true ∧ deadlinePassed = false ∧ waitFor fences = .none := by
        simpa [ExecuteCall.refused, and_assoc] using h
      rcases hpassed with ⟨rfl, rfl, hwait⟩
      refine ⟨_, fencedReport, mapsPools_memoryPools pm b request.pools, .inr (.inr ⟨rfl, rfl⟩), ?_⟩
      exact if_neg (not_not.mpr hwait)

theorem ExecuteCall.program_phases {call : ExecuteCall} (h : call.refused = false)
    (pm : BasePreparedModel) (b : Behaviour) :
    ∃ mapPools report, MapsPools pm b call.pools mapPools ∧ Reports report ∧
      call.program =
        phases call.scalarDims mapPools call.inputs call.outputs >>= report := by
  obtain ⟨mapPools, report, hmap, hreport, hprogram⟩ := ExecuteCall.program_report h pm b
  refine ⟨mapPools, report, hmap, ?_, hprogram⟩
  rcases hreport with ⟨rfl, -⟩ | ⟨rfl, -⟩ | ⟨rfl, -⟩
  · exact asyncReport_reports
  · exact syncReport_reports
  · exact fencedReport_reports

/-! ## The runs of the phases -/

section Phases

variable {pm : BasePreparedModel} {b : Behaviour} {pools : List HidlMemory} {s : SharedState}
  {scalarDims : Bool} {mapPools : Execution ErrorStatus} {inputs outputs : List RequestArgument}

theorem ExecutionCmd.notification_of_closing {c : ExecutionCmd} (h : c.closing = none) :
    c.notification = none := by
  cases c with
  | notify n => cases h
  | _ => rfl

theorem ExecutionCmd.ne_update_of_closing {c : ExecutionCmd} (h : c.closing = none) :
    c ≠ .updateRequestPoolInfos := by
  intro heq
  subst heq
  cases h

/-- The phases notify of nothing. -/
theorem quiet_phases (hmap : MapsPools pm b pools mapPools) (scalarDims : Bool)
    (inputs outputs : List RequestArgument) :
    Quiet ExecutionCmd.notification (phases scalarDims mapPools inputs outputs) := by
  have hclosing := fun c => @ExecutionCmd.notification_of_closing c
  apply Quiet.bind (hmap.quiet.mono hclosing)
  intro status
  refine quiet_ite (quiet_pure _) ?_
  refine Quiet.bind ((quiet_copyInputs inputs _).mono hclosing) fun _ => ?_
  apply Quiet.bind (quiet_perform rfl)
  intro inferred
  refine quiet_ite (quiet_pure _) ?_
  apply Quiet.bind ((quiet_copyOutputs scalarDims outputs _).mono hclosing)
  intro sufficient
  refine quiet_ite (quiet_pure _) ?_
  exact Quiet.bind (quiet_perform rfl) fun updated => quiet_pure _

/-- Every output that is reached is copied, or passed over, in the trace. -/
theorem copyOutputs_traced (is : List Nat) (h : s.Mapped pools)
    (hend : pm.outputsEnd b pools outputs is = some true) :
    ∀ i ∈ is, ∃ s₁ s₂ copy, copy ≠ .mismatch ∧ pm.outputCopy b pools outputs i = some copy ∧
      executionAnswer pm b (.copyOutput scalarDims outputs i) s₁ = .ok (copy, s₂) ∧
        (s₁, .copyOutput scalarDims outputs i) ∈
          (exec (executionAnswer pm b) (copyOutputs scalarDims outputs is) s).trace := by
  induction is generalizing s with
  | nil => simp
  | cons j is ih =>
      simp only [BasePreparedModel.outputsEnd] at hend
      cases hj : pm.outputCopy b pools outputs j with
      | none => simp [hj] at hend
      | some copy =>
          obtain ⟨mOperands, hcopy⟩ := @copyOutput_ok pm b pools s h scalarDims outputs j copy hj
          have hanswer : executionAnswer pm b (.copyOutput scalarDims outputs j) s = _ := hcopy
          have hcopied : copy ≠ .mismatch ∧ pm.outputsEnd b pools outputs is = some true := by
            cases copy <;> simp_all
          rw [copyOutputs, exec_perform_bind hanswer, if_neg hcopied.1]
          intro i hi
          rcases List.mem_cons.mp hi with rfl | hi
          · exact ⟨s, _, copy, hcopied.1, hj, hanswer, List.mem_cons_self⟩
          · obtain ⟨s₁, s₂, copy', hne, hget, hanswer', htrace⟩ := @ih
              { s with
                mModelInfo := { s.mModelInfo with
                  mOperands
                  mOutputShapes := pm.shapesAfter scalarDims outputs s.mModelInfo.mOutputShapes j }
                memory := _ } h hcopied.2 i hi
            exact ⟨s₁, s₂, copy', hne, hget, hanswer', List.mem_cons_of_mem _ htrace⟩

/-- An output without a name is not copied. -/
theorem copyOutput_ne_copied {i : Nat} (hname : pm.outputNodeName i = "") (s s' : SharedState) :
    executionAnswer pm b (.copyOutput scalarDims outputs i) s ≠ .ok (.copied, s') := by
  by_cases hnamed : pm.HasName (pm.outIndex i)
  · simp [executionAnswer, SharedState.copyOutput, hname, hnamed]
  · simp [executionAnswer, SharedState.copyOutput, hnamed]

theorem outputCopy_skipped {i : Nat}
    (h : pm.outputCopy b pools outputs i = some .skipped) : pm.outputNodeName i = "" := by
  by_contra hname
  obtain ⟨-, -, ⟨hcopy, -⟩ | ⟨hcopy, -⟩⟩ := outputCopy_of_named hname h
  · cases hcopy
  · cases hcopy

/-- What the trace of a completed execution shows. -/
structure Completed (pm : BasePreparedModel) (b : Behaviour) (pools : List HidlMemory)
    (scalarDims : Bool) (outputs : List RequestArgument)
    (trace : List (SharedState × ExecutionCmd)) : Prop where
  inferred : ∃ s₁ s₂, (s₁, .infer) ∈ trace ∧ executionAnswer pm b .infer s₁ = .ok (true, s₂)
  copied : ∀ i < outputs.length, ∃ s₁ s₂ copy, copy ≠ .mismatch ∧
    pm.outputCopy b pools outputs i = some copy ∧
      executionAnswer pm b (.copyOutput scalarDims outputs i) s₁ = .ok (copy, s₂) ∧
        (s₁, .copyOutput scalarDims outputs i) ∈ trace
  updated : ∃ s₁, s₁.Mapped pools ∧
    ∀ s₂, (s₂, ExecutionCmd.updateRequestPoolInfos) ∈ trace ↔ s₂ = s₁

theorem Completed.append {trace rest : List (SharedState × ExecutionCmd)}
    (h : Completed pm b pools scalarDims outputs trace)
    (hrest : ∀ sc ∈ rest, sc.2 ≠ .updateRequestPoolInfos) :
    Completed pm b pools scalarDims outputs (trace ++ rest) := by
  constructor
  · rcases h.inferred with ⟨s₁, s₂, htrace, hanswer⟩
    exact ⟨s₁, s₂, List.mem_append_left _ htrace, hanswer⟩
  · intro i hi
    obtain ⟨s₁, s₂, copy, hne, hget, hanswer, htrace⟩ := h.copied i hi
    exact ⟨s₁, s₂, copy, hne, hget, hanswer, List.mem_append_left _ htrace⟩
  · rcases h.updated with ⟨s₁, hmapped, hupdate⟩
    refine ⟨s₁, hmapped, fun s₂ => ?_⟩
    rw [List.mem_append, hupdate, or_iff_left]
    exact fun hmem => hrest _ hmem rfl

/-- A completed execution. -/
theorem phases_completed (hmap : MapsPools pm b pools mapPools)
    (hmaps : mapsAll b.maps 0 pools = true) (hinputs : pm.InputsPass b pools inputs)
    (hinfers : b.infers = true) (hend : pm.requestOutputsEnd b pools outputs = some true) :
    let run := exec (executionAnswer pm b) (phases scalarDims mapPools inputs outputs) s
    run.outcome = .ok (.completed true) ∧
      Completed pm b pools scalarDims outputs run.trace := by
  obtain ⟨s₁, s₂, front, hmapped, -, -, -, hanswer, hinfer, hfront, hphases⟩ :=
    @phases_inferred pm b pools s scalarDims mapPools inputs outputs hmap hmaps hinputs hinfers
  obtain ⟨hmapped', -, -, houtcome, htrace⟩ :=
    @outputPhases_ended pm b pools s₂ scalarDims outputs hmapped true hend
  rw [hphases]
  simp only [Ran.outcome_after, Ran.trace_after, houtcome, htrace, if_true]
  refine ⟨trivial, ?_, ?_, ?_⟩
  · exact ⟨s₁, s₂, List.mem_append_left _ hinfer, hanswer⟩
  · intro i hi
    obtain ⟨t₁, t₂, copy, hne, hget, hcopy, hcopied⟩ :=
      @copyOutputs_traced pm b pools s₂ scalarDims outputs _ hmapped hend i (List.mem_range.mpr hi)
    exact ⟨t₁, t₂, copy, hne, hget, hcopy, by simp [hcopied]⟩
  · -- the commands before the last one do not update
    have hbefore : ∀ t, (t, ExecutionCmd.updateRequestPoolInfos) ∉ front :=
      fun t hmem => ExecutionCmd.ne_update_of_closing (hfront _ hmem) rfl
    have hcopies : ∀ t, (t, ExecutionCmd.updateRequestPoolInfos) ∉
        (exec (executionAnswer pm b)
          (copyOutputs scalarDims outputs (List.range outputs.length)) s₂).trace :=
      fun t hmem => ExecutionCmd.ne_update_of_closing
        ((quiet_copyOutputs scalarDims outputs _).trace_none s₂ _ hmem) rfl
    exact ⟨_, hmapped', fun t => by simp [hbefore, hcopies]⟩

/-- Where a copy does not return, neither do the phases. -/
theorem phases_error (hmap : MapsPools pm b pools mapPools)
    (hmaps : mapsAll b.maps 0 pools = true)
    (h : ¬ pm.InputsPass b pools inputs ∨
      b.infers = true ∧ pm.requestOutputsEnd b pools outputs = none) :
    ∃ e, (exec (executionAnswer pm b) (phases scalarDims mapPools inputs outputs) s).outcome =
      .error e := by
  by_cases hinputs : pm.InputsPass b pools inputs
  · obtain ⟨hinfers, hend⟩ := h.resolve_left (not_not.mpr hinputs)
    exact (phases_outputsError hmap hmaps hinputs hinfers hend).1
  · exact (phases_inputsError hmap hmaps hinputs).1

/-- Where the inference throws or a length does not match, they end early. -/
theorem phases_early (hmap : MapsPools pm b pools mapPools)
    (hmaps : mapsAll b.maps 0 pools = true) (hinputs : pm.InputsPass b pools inputs)
    (h : b.infers = false ∨ pm.requestOutputsEnd b pools outputs = some false) :
    ∃ phasesEnd, (phasesEnd = .notInferred ∨ phasesEnd = .insufficient) ∧
      (exec (executionAnswer pm b) (phases scalarDims mapPools inputs outputs) s).outcome =
        .ok phasesEnd := by
  cases hinfers : b.infers with
  | false => exact ⟨_, .inl rfl, (phases_notInferred hmap hmaps hinputs hinfers).1⟩
  | true =>
      have hend := h.resolve_left (by simp [hinfers])
      exact ⟨_, .inr rfl, (phases_outputsEnd hmap hmaps hinputs hinfers hend).1⟩

end Phases

/-! ## One result for each call -/

section Calls

variable {pm : BasePreparedModel} {b : Behaviour} {call : ExecuteCall} {s : SharedState}
  {mapPools : Execution ErrorStatus} {report : PhasesEnd → Execution Unit}

/-- A call whose phases stop is never reported. -/
theorem not_deliversOnce_of_error
    (hprogram : call.program = phases call.scalarDims mapPools call.inputs call.outputs >>= report)
    (hmap : MapsPools pm b call.pools mapPools) {e : ExecutionStop}
    (he : (exec (executionAnswer pm b)
      (phases call.scalarDims mapPools call.inputs call.outputs) s).outcome = .error e) :
    ¬ DeliversOnce pm b call (exec (executionAnswer pm b) call.program s) := by
  intro hboth
  rcases hboth with ⟨⟨n, hn⟩, -⟩
  have hsilent := (quiet_phases hmap call.scalarDims call.inputs call.outputs).selected_nil
    (executionAnswer pm b) s
  rw [hprogram, exec_bind_error he] at hn
  exact absurd (hsilent.symm.trans hn) (by simp)

/-- A call whose phases return is reported once. -/
theorem notification_of_ok
    (hprogram : call.program = phases call.scalarDims mapPools call.inputs call.outputs >>= report)
    (hmap : MapsPools pm b call.pools mapPools) (hreport : Reports report) {phasesEnd : PhasesEnd}
    (hmapped : phasesEnd ≠ .unmapped .none)
    (houtcome : (exec (executionAnswer pm b)
      (phases call.scalarDims mapPools call.inputs call.outputs) s).outcome = .ok phasesEnd) :
    ∃ n, (exec (executionAnswer pm b) call.program s).selected ExecutionCmd.notification = [n] ∧
      (n.status = .none → ∃ updated, phasesEnd = .completed updated) ∧
        (phasesEnd = .completed true → n.status = .none) := by
  have hsilent := (quiet_phases hmap call.scalarDims call.inputs call.outputs).selected_nil
    (executionAnswer pm b) s
  obtain ⟨n, hn, hstatus⟩ := hreport.once pm b phasesEnd _ hmapped
  refine ⟨n, ?_, hstatus⟩
  rw [hprogram, exec_bind_ok houtcome, Ran.selected_after]
  exact congrArg₂ (· ++ ·) hsilent hn

/-- Where the phases do not complete, nothing has to be backed. -/
theorem deliversOnce_of_early
    (hprogram : call.program = phases call.scalarDims mapPools call.inputs call.outputs >>= report)
    (hmap : MapsPools pm b call.pools mapPools) (hreport : Reports report) {phasesEnd : PhasesEnd}
    (hmapped : phasesEnd ≠ .unmapped .none) (hearly : ∀ updated, phasesEnd ≠ .completed updated)
    (houtcome : (exec (executionAnswer pm b)
      (phases call.scalarDims mapPools call.inputs call.outputs) s).outcome = .ok phasesEnd) :
    DeliversOnce pm b call (exec (executionAnswer pm b) call.program s) := by
  obtain ⟨n, hn, hstatus, -⟩ := notification_of_ok hprogram hmap hreport hmapped houtcome
  refine ⟨⟨n, hn⟩, fun m hm hnone => ?_⟩
  rw [hn, List.mem_singleton] at hm
  subst hm
  obtain ⟨updated, rfl⟩ := hstatus hnone
  exact absurd rfl (hearly updated)

/-- A completed execution is backed when every output has a name and every
update succeeds. -/
theorem backed_of_completed
    {run : Ran SharedState ExecutionCmd ExecutionStop Unit}
    (hcompleted : Completed pm b call.pools call.scalarDims call.outputs run.trace) :
    Backed pm b call run ↔
      (∀ i < call.outputs.length, pm.outputNodeName i ≠ "") ∧
        ∀ i < call.pools.length, (call.pools.getD i default).updates (b.syncs i) = true := by
  rcases hcompleted.updated with ⟨s₁, hmapped, hupdate⟩
  constructor
  · intro hboth
    rcases hboth with ⟨-, hcopied, s₂, hs₂, hall⟩
    constructor
    · intro i hi hname
      obtain ⟨t₁, t₂, -, hanswer⟩ := hcopied i hi
      exact copyOutput_ne_copied hname t₁ t₂ hanswer
    · intro i hi
      obtain rfl := (hupdate s₂).mp hs₂
      obtain ⟨poolInfo, hget, hmaps⟩ := MappedTable.getElem hmapped hi
      have htrue := hall i poolInfo hget
      rw [update_of_maps hmaps] at htrue
      exact Option.some.inj htrue
  · intro hboth
    rcases hboth with ⟨hnames, hupdates⟩
    refine ⟨hcompleted.inferred, fun i hi => ?_, s₁, (hupdate s₁).mpr rfl, ?_⟩
    · obtain ⟨t₁, t₂, copy, hne, hget, hanswer, htrace⟩ := hcompleted.copied i hi
      refine ⟨t₁, t₂, htrace, ?_⟩
      cases copy with
      | copied => exact hanswer
      | mismatch => exact absurd rfl hne
      | skipped => exact absurd (outputCopy_skipped hget) (hnames i hi)
    · intro i poolInfo hget
      have hi : i < call.pools.length := by
        have hlength := List.Forall₂.length_eq hmapped
        have hbound := (List.getElem?_eq_some_iff.mp hget).1
        omega
      obtain ⟨poolInfo', hget', hmaps⟩ := MappedTable.getElem hmapped hi
      obtain rfl : poolInfo = poolInfo' := Option.some.inj (hget.symm.trans hget')
      rw [update_of_maps hmaps, hupdates i hi]

/-- A completed execution is reported with NONE, so it has to be backed. -/
theorem deliversOnce_of_completed
    (hprogram : call.program = phases call.scalarDims mapPools call.inputs call.outputs >>= report)
    (hmap : MapsPools pm b call.pools mapPools) (hreport : Reports report)
    (hmaps : mapsAll b.maps 0 call.pools = true) (hinputs : pm.InputsPass b call.pools call.inputs)
    (hinfers : b.infers = true)
    (hend : pm.requestOutputsEnd b call.pools call.outputs = some true) :
    DeliversOnce pm b call (exec (executionAnswer pm b) call.program s) ↔
      (∀ i < call.outputs.length, pm.outputNodeName i ≠ "") ∧
        ∀ i < call.pools.length, (call.pools.getD i default).updates (b.syncs i) = true := by
  obtain ⟨houtcome, hcompleted⟩ :=
    @phases_completed pm b call.pools s call.scalarDims mapPools call.inputs call.outputs
      hmap hmaps hinputs hinfers hend
  obtain ⟨n, hn, -, hnone⟩ := notification_of_ok hprogram hmap hreport (by simp) houtcome
  -- the report adds nothing that the trace of the phases does not show
  have hrun : Completed pm b call.pools call.scalarDims call.outputs
      (exec (executionAnswer pm b) call.program s).trace := by
    rw [hprogram, exec_bind_ok houtcome, Ran.trace_after]
    exact hcompleted.append fun sc hsc => hreport.noUpdate pm b _ _ sc hsc
  rw [← backed_of_completed hrun]
  constructor
  · intro h
    exact h.backed n (by simp [hn]) (hnone rfl)
  · intro h
    exact ⟨⟨n, hn⟩, fun _ _ _ => h⟩

/-- **One result for each call.**  Over every state, system and engine: the
callback hears of the call once, and of NONE only when it is backed, exactly when
the call is refused, or its pools are not mapped, or every input copy returns and
the execution does not complete with an output that has no name or with a pool
whose update fails. -/
theorem deliversOnce_iff (pm : BasePreparedModel) (b : Behaviour) (call : ExecuteCall)
    (s : SharedState) :
    DeliversOnce pm b call (exec (executionAnswer pm b) call.program s) ↔
      call.refused = true ∨ mapsAll b.maps 0 call.pools = false ∨ DeliversWhen pm b call := by
  cases hrefused : call.refused with
  | true =>
      obtain ⟨n, hn, hprogram⟩ := ExecuteCall.program_refused hrefused
      have hselected : (exec (executionAnswer pm b) call.program s).selected
          ExecutionCmd.notification = [n] := by
        rw [hprogram]
        rfl
      refine iff_of_true ⟨⟨n, hselected⟩, fun m hm hnone => ?_⟩ (.inl rfl)
      rw [hselected, List.mem_singleton] at hm
      exact absurd (hm ▸ hnone) hn
  | false =>
      obtain ⟨mapPools, report, hmap, hreport, hprogram⟩ :=
        ExecuteCall.program_phases hrefused pm b
      cases hmaps : mapsAll b.maps 0 call.pools with
      | false =>
          obtain ⟨⟨status, hstatus, houtcome⟩, -⟩ :=
            @phases_unmapped pm b call.pools s call.scalarDims mapPools call.inputs call.outputs
              hmap hmaps
          have hmapped : PhasesEnd.unmapped status ≠ .unmapped .none := by
            intro h
            exact hstatus (PhasesEnd.unmapped.inj h)
          have hdelivers := deliversOnce_of_early hprogram hmap hreport hmapped nofun houtcome
          exact iff_of_true hdelivers (.inr (.inl rfl))
      | true =>
          simp only [Bool.false_eq_true, Bool.true_eq_false, false_or]
          by_cases hstops : ¬ pm.InputsPass b call.pools call.inputs ∨
              b.infers = true ∧ pm.requestOutputsEnd b call.pools call.outputs = none
          · obtain ⟨e, he⟩ :=
              @phases_error pm b call.pools s call.scalarDims mapPools call.inputs call.outputs
                hmap hmaps hstops
            refine iff_of_false (not_deliversOnce_of_error hprogram hmap he) ?_
            intro hboth
            rcases hboth with ⟨hinputs, hends⟩
            obtain ⟨hinfers, hend⟩ := hstops.resolve_left (not_not.mpr hinputs)
            simp [hinfers, hend] at hends
          · obtain ⟨hinputs, hends⟩ := not_or.mp hstops
            rw [not_not] at hinputs
            by_cases hearly : b.infers = false ∨
                pm.requestOutputsEnd b call.pools call.outputs = some false
            · obtain ⟨phasesEnd, hphasesEnd, houtcome⟩ :=
                @phases_early pm b call.pools s call.scalarDims mapPools call.inputs call.outputs
                  hmap hmaps hinputs hearly
              refine iff_of_true ?_ ⟨hinputs, hearly.imp_right .inl⟩
              rcases hphasesEnd with rfl | rfl
              · exact deliversOnce_of_early hprogram hmap hreport (by simp) (by simp) houtcome
              · exact deliversOnce_of_early hprogram hmap hreport (by simp) (by simp) houtcome
            · obtain ⟨hinfers, hnotFalse⟩ := not_or.mp hearly
              rw [Bool.not_eq_false] at hinfers
              have hend : pm.requestOutputsEnd b call.pools call.outputs = some true := by
                rcases hcases : pm.requestOutputsEnd b call.pools call.outputs with - | - | -
                · exact absurd ⟨hinfers, hcases⟩ hends
                · exact absurd hcases hnotFalse
                · rfl
              rw [deliversOnce_of_completed hprogram hmap hreport hmaps hinputs hinfers hend]
              simp [DeliversWhen, hinputs, hinfers, hend]

end Calls

/-! ## A call without a result -/

/-- A model with one reshape from four bytes to four bytes. -/
def reshapeModel : Model where
  operands :=
    [{ type := .tensorFloat32, dimensions := [1], lifetime := .subgraphInput },
     { type := .tensorInt32, dimensions := [1], lifetime := .constantCopy,
       location := { length := 4 } },
     { type := .tensorFloat32, dimensions := [1], lifetime := .subgraphOutput }]
  operations := [{ type := .reshape, inputs := [0, 1], outputs := [2] }]
  inputIndexes := [0]
  outputIndexes := [2]
  operandValues := [1, 0, 0, 0]

/-- Conversions for models whose elements are never converted. -/
def unusedConversions : Conversions where
  widen _ := [0, 0, 0, 0]
  toUint8 _ := [0]
  toInt8 _ := [0]
  toFloat16 _ := [0, 0]
  toInt16 _ := [0, 0]
  toUInt16 _ := [0, 0]
  length_widen _ := rfl
  length_toUint8 _ := rfl
  length_toInt8 _ := rfl
  length_toFloat16 _ := rfl
  length_toInt16 _ := rfl
  length_toUInt16 _ := rfl

/-- The prepared model gives its input back. -/
def reshapePreparedModel : BasePreparedModel where
  mModel := reshapeModel
  getNodeName
    | 0 => some "Parameter"
    | 2 => some "Reshape"
    | _ => none
  outputDims _ := [1]
  outputByteSize _ := 4
  infer inputBlobs _ := overwrite [0, 0, 0, 0] (inputBlobs "Parameter")
  length_infer inputBlobs _ := by
    simp only [overwrite, List.length_append, List.length_take, List.length_drop,
      List.length_cons, List.length_nil]
    omega
  conversions := unusedConversions

/-- A request with its input in one memory and its output in another. -/
def reshapeRequest (inputObject outputObject : Nat) : Request HidlMemory where
  inputs := [{ location := { poolIndex := 0, length := 4 } }]
  outputs := [{ location := { poolIndex := 1, length := 4 } }]
  pools :=
    [{ name := .ashmem, size := 4, object := inputObject },
     { name := .ashmem, size := 4, object := outputObject }]

/-- The state before the first execution; every byte of a memory is its
number. -/
def reshapeStart : SharedState where
  mModelInfo :=
    (RuntimeInfo.initRuntimeInfo {} (fun _ => true) [] reshapeModel {}).1.toOption.getD {}
  inputBlobs _ := [0, 0, 0, 0]
  outputBlobs _ := [0, 0, 0, 0]
  memory object := List.replicate 4 object.toUInt8

/-- When `getBlob` throws for the input, `executeSynchronously` unwinds and its
callback never hears of it. -/
theorem executeSynchronously_unreported :
    ¬ ∀ (pm : BasePreparedModel) (b : Behaviour) (call : ExecuteCall) (s : SharedState),
      DeliversOnce pm b call (exec (executionAnswer pm b) call.program s) := by
  intro h
  obtain ⟨⟨n, hn⟩, -⟩ := h reshapePreparedModel
    { Behaviour.permissive with getsInput := fun _ => false }
    (.executeSynchronously true (reshapeRequest 1 2)) reshapeStart
  cases hn

end NnHal
