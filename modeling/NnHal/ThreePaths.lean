import NnHal.History

/-!
# The three paths of an execution

`asyncExecute`, `executeSynchronouslyBase` and `executeFenced` are three copies
of one algorithm.  What a path leaves is the status it reports, the client's
memory and the recorded shapes.  The copies agree on all of it but for one
thing: a blob without dimensions is recorded as one of dimension 1 by the first
two, and as it is by the third.
-/

namespace NnHal

open Command BasePreparedModel

/-! ## What a path leaves -/

/-- The statuses the callback is told, the client's memory and the recorded
shapes. -/
@[ext]
structure PathEnd where
  statuses : List ErrorStatus
  memory : Nat → List UInt8
  mOutputShapes : List OutputShape

/-- What the run of a program leaves. -/
def pathEnd (pm : BasePreparedModel) (b : Behaviour) (program : Execution Unit)
    (s : SharedState) : PathEnd :=
  let run := exec (executionAnswer pm b) program s
  { statuses := (run.selected ExecutionCmd.notification).map (·.status)
    memory := run.state.memory
    mOutputShapes := run.state.mModelInfo.mOutputShapes }

/-- The request with its pools in the form of HAL 1.3. -/
def Request.convertToV1_3 (request : Request HidlMemory) : Request MemoryPool :=
  { request with pools := request.pools.map .hidlMemory }

/-- The three paths leave the same for the request. -/
structure PathsAgree (pm : BasePreparedModel) (b : Behaviour) (fences : List Fence)
    (request : Request HidlMemory) (s : SharedState) : Prop where
  synchronous : pathEnd pm b (executeSynchronously true request) s =
    pathEnd pm b (asyncExecute request) s
  fenced : pathEnd pm b (executeFenced true false fences request.convertToV1_3) s =
    pathEnd pm b (asyncExecute request) s

/-! ## Shapes, with and without the dimension of a scalar -/

namespace BasePreparedModel

variable (pm : BasePreparedModel)

/-- A blob without dimensions that holds something, for an output recorded with
one dimension other than 1. -/
def ScalarMismatch (shapes : List OutputShape) (i : Nat) : Prop :=
  pm.outputNodeName i ≠ "" ∧ pm.outputDims (pm.outputNodeName i) = [] ∧ pm.actualLength i ≠ 0 ∧
    (shapes.getD i default).dimensions.length = 1 ∧ (shapes.getD i default).dimensions ≠ [1]

instance (shapes : List OutputShape) (i : Nat) : Decidable (pm.ScalarMismatch shapes i) :=
  inferInstanceAs (Decidable (_ ∧ _))

end BasePreparedModel

/-- No dimension and one dimension 1 make the same of a shape, unless it has one
dimension other than 1. -/
theorem OutputShape.update_scalar (shape : OutputShape) (ok : Bool) :
    (shape.update [] ok).2 = (shape.update [1] ok).2 ↔
      ¬ (shape.dimensions.length = 1 ∧ shape.dimensions ≠ [1]) := by
  rcases shape with ⟨dimensions, isSufficient⟩
  unfold OutputShape.update
  match dimensions with
  | [] => simp
  | [d] => simp
  | d :: e :: dims => simp

section Shapes

variable {pm : BasePreparedModel} {outputs : List RequestArgument} {shapes : List OutputShape}

/-- The copy of one output records the same on all paths unless the output is
such a scalar. -/
theorem getD_shapesAfter_scalar (i : Nat) :
    (pm.shapesAfter false outputs shapes i).getD i default =
        (pm.shapesAfter true outputs shapes i).getD i default ↔
      ¬ pm.ScalarMismatch shapes i := by
  by_cases hscalar : pm.outputNodeName i ≠ "" ∧ pm.outputDims (pm.outputNodeName i) = [] ∧
      pm.actualLength i ≠ 0
  · rcases hscalar with ⟨hname, hdims, hlength⟩
    have hfalse : pm.reportedDims false i = [] := by simp [reportedDims, hdims]
    have htrue : pm.reportedDims true i = [1] := by simp [reportedDims, hdims, hlength]
    by_cases hi : i < shapes.length
    · rw [pm.getD_shapesAfter_self false outputs shapes hname hi,
        pm.getD_shapesAfter_self true outputs shapes hname hi, hfalse, htrue,
        OutputShape.update_scalar]
      simp [ScalarMismatch, hname, hdims, hlength]
    · -- there is no shape to record
      have hnone : ∀ scalarDims,
          (pm.shapesAfter scalarDims outputs shapes i).getD i default = default := by
        intro scalarDims
        have hout : (pm.shapesAfter scalarDims outputs shapes i).length ≤ i := by
          rw [length_shapesAfter]
          omega
        rw [List.getD_eq_getElem?_getD, List.getElem?_eq_none hout]
        rfl
      have hdefault : (shapes.getD i default).dimensions.length ≠ 1 := by
        rw [List.getD_eq_getElem?_getD, List.getElem?_eq_none (by omega)]
        decide
      refine iff_of_true ((hnone false).trans (hnone true).symm) ?_
      intro hboth
      rcases hboth with ⟨-, -, -, hone, -⟩
      exact hdefault hone
  · -- the dimensions are recorded as they are
    refine iff_of_true ?_ fun h => hscalar ⟨h.1, h.2.1, h.2.2.1⟩
    by_cases hname : pm.outputNodeName i = ""
    · simp [shapesAfter, hname]
    · have hsame : pm.reportedDims true i = pm.reportedDims false i := by
        have hnot : ¬ (pm.outputDims (pm.outputNodeName i) = [] ∧ pm.actualLength i ≠ 0) :=
          fun h => hscalar ⟨hname, h⟩
        simp [reportedDims, hnot]
      simp only [shapesAfter, hsame]

/-- The loop records an output once. -/
theorem getD_foldl_shapesAfter_self (scalarDims : Bool) {is : List Nat} (his : is.Nodup)
    {j : Nat} (hj : j ∈ is) :
    (is.foldl (pm.shapesAfter scalarDims outputs) shapes).getD j default =
      (pm.shapesAfter scalarDims outputs shapes j).getD j default := by
  induction is generalizing shapes with
  | nil => cases hj
  | cons i is ih =>
      obtain ⟨hi, his⟩ := List.nodup_cons.mp his
      rw [List.foldl_cons]
      rcases List.mem_cons.mp hj with rfl | hj
      · rw [pm.getD_foldl_shapesAfter scalarDims outputs _ hi]
      · have hij : i ≠ j := by
          intro heq
          subst heq
          exact hi hj
        rw [ih his hj]
        have hget := pm.getD_shapesAfter_of_ne scalarDims outputs shapes hij
        by_cases hname : pm.outputNodeName j = ""
        · simp only [shapesAfter, hname, if_true]
          exact hget
        · by_cases hlength : j < shapes.length
          · rw [pm.getD_shapesAfter_self _ _ _ hname hlength,
              pm.getD_shapesAfter_self _ _ _ hname (by rwa [length_shapesAfter]), hget]
          · rw [List.getD_eq_getElem?_getD, List.getD_eq_getElem?_getD,
              List.getElem?_eq_none, List.getElem?_eq_none]
            · rw [length_shapesAfter]
              omega
            · rw [length_shapesAfter, length_shapesAfter]
              omega

@[simp]
theorem length_foldl_shapesAfter (scalarDims : Bool) (is : List Nat) :
    (is.foldl (pm.shapesAfter scalarDims outputs) shapes).length = shapes.length := by
  induction is generalizing shapes with
  | nil => rfl
  | cons i is ih => rw [List.foldl_cons, ih, length_shapesAfter]

/-- The loop records the same on all paths unless it meets such a scalar. -/
theorem foldl_shapesAfter_scalar {is : List Nat} (his : is.Nodup) :
    is.foldl (pm.shapesAfter false outputs) shapes =
        is.foldl (pm.shapesAfter true outputs) shapes ↔
      ∀ i ∈ is, ¬ pm.ScalarMismatch shapes i := by
  constructor
  · intro heq i hi
    rw [← @getD_shapesAfter_scalar pm outputs shapes i,
      ← getD_foldl_shapesAfter_self false his hi, ← getD_foldl_shapesAfter_self true his hi, heq]
  · intro h
    apply List.ext_getElem (by simp)
    intro j hj hj'
    have hget : (is.foldl (pm.shapesAfter false outputs) shapes).getD j default =
        (is.foldl (pm.shapesAfter true outputs) shapes).getD j default := by
      by_cases hmem : j ∈ is
      · rw [getD_foldl_shapesAfter_self false his hmem, getD_foldl_shapesAfter_self true his hmem]
        exact (getD_shapesAfter_scalar j).mpr (h j hmem)
      · rw [pm.getD_foldl_shapesAfter false outputs shapes hmem,
          pm.getD_foldl_shapesAfter true outputs shapes hmem]
    rw [List.getD_eq_getElem?_getD, List.getD_eq_getElem?_getD, List.getElem?_eq_getElem hj,
      List.getElem?_eq_getElem hj'] at hget
    exact hget

end Shapes

/-! ## The end of each path -/

namespace BasePreparedModel

variable (pm : BasePreparedModel) (b : Behaviour)

theorem recordedOutputs_sublist (pools : List HidlMemory) (outputs : List RequestArgument)
    (is : List Nat) : (pm.recordedOutputs b pools outputs is).Sublist is := by
  induction is with
  | nil => exact .slnil
  | cons i is ih =>
      simp only [recordedOutputs]
      cases pm.outputCopy b pools outputs i with
      | none => exact List.nil_sublist _
      | some copy =>
          cases copy with
          | mismatch => exact (List.nil_sublist is).cons_cons i
          | skipped | copied => exact ih.cons_cons i

/-- A loop that ends records what it reaches. -/
theorem recordedOutputs_eq (pools : List HidlMemory) (outputs : List RequestArgument)
    {is : List Nat} (h : pm.outputsEnd b pools outputs is ≠ none) :
    pm.recordedOutputs b pools outputs is = pm.reachedOutputs b pools outputs is := by
  induction is with
  | nil => rfl
  | cons i is ih =>
      simp only [outputsEnd] at h
      simp only [recordedOutputs, reachedOutputs]
      cases hi : pm.outputCopy b pools outputs i with
      | none => simp [hi] at h
      | some copy =>
          rw [hi] at h
          cases copy with
          | mismatch => rfl
          | skipped | copied => exact congrArg _ (ih h)

/-- The outputs of the request whose shapes are recorded. -/
def requestRecorded (request : Request HidlMemory) : List Nat :=
  pm.recordedOutputs b request.pools request.outputs (List.range request.outputs.length)

/-- What the three paths leave; they differ in `scalarDims`. -/
def requestEnd (scalarDims : Bool) (request : Request HidlMemory) (s : SharedState) : PathEnd :=
  if ¬ mapsAll b.maps 0 request.pools then
    ⟨[.generalFailure], s.memory, s.mModelInfo.mOutputShapes⟩
  else if ¬ pm.InputsPass b request.pools request.inputs then
    ⟨[], s.memory, s.mModelInfo.mOutputShapes⟩
  else if ¬ b.infers then ⟨[.generalFailure], s.memory, s.mModelInfo.mOutputShapes⟩
  else
    { statuses :=
        match pm.requestOutputsEnd b request.pools request.outputs with
        | none => []
        | some true => [.none]
        | some false => [.outputInsufficientSize]
      memory := (pm.requestEffect b request.pools scalarDims request.inputs request.outputs s).1
      mOutputShapes := (pm.requestRecorded b request).foldl
        (pm.shapesAfter scalarDims request.outputs) s.mModelInfo.mOutputShapes }

end BasePreparedModel

/-- The status a report tells; pools of the request are mapped or not, and all of
them are updated. -/
def BasePreparedModel.PhasesEnd.status : PhasesEnd → ErrorStatus
  | .unmapped _ | .notInferred => .generalFailure
  | .insufficient => .outputInsufficientSize
  | .completed _ => .none

/-- An end that `phases` can have for pools that are memories. -/
def BasePreparedModel.PhasesEnd.Usual : PhasesEnd → Prop
  | .unmapped errorStatus => errorStatus = .generalFailure
  | .completed updated => updated = true
  | .notInferred | .insufficient => True

/-- The report tells the status of the end, and changes nothing. -/
def TellsStatus (report : PhasesEnd → Execution Unit) : Prop :=
  ∀ pm b (phasesEnd : PhasesEnd) s, phasesEnd.Usual →
    let run := exec (executionAnswer pm b) (report phasesEnd) s
    (run.selected ExecutionCmd.notification).map (·.status) = [phasesEnd.status] ∧ run.state = s

theorem asyncReport_tellsStatus : TellsStatus asyncReport := by
  intro pm b phasesEnd s h
  cases phasesEnd <;> exact ⟨rfl, rfl⟩

theorem syncReport_tellsStatus : TellsStatus syncReport := by
  intro pm b phasesEnd s h
  cases phasesEnd with
  | completed updated =>
      obtain rfl : updated = true := h
      exact ⟨rfl, rfl⟩
  | unmapped status | notInferred | insufficient => exact ⟨rfl, rfl⟩

theorem fencedReport_tellsStatus : TellsStatus fencedReport := by
  intro pm b phasesEnd s h
  cases phasesEnd with
  | unmapped status =>
      obtain rfl : status = .generalFailure := h
      exact ⟨rfl, rfl⟩
  | notInferred | insufficient | completed updated => exact ⟨rfl, rfl⟩

section Paths

variable {pm : BasePreparedModel} {b : Behaviour} {request : Request HidlMemory} {s : SharedState}
  {scalarDims : Bool} {mapPools : Execution ErrorStatus} {report : PhasesEnd → Execution Unit}

theorem pathEnd_of_ok (hmap : MapsPools pm b request.pools mapPools) (hreport : TellsStatus report)
    {phasesEnd : PhasesEnd} (husual : phasesEnd.Usual)
    (h : (exec (executionAnswer pm b)
      (phases scalarDims mapPools request.inputs request.outputs) s).outcome = .ok phasesEnd) :
    let state := (exec (executionAnswer pm b)
      (phases scalarDims mapPools request.inputs request.outputs) s).state
    pathEnd pm b (phases scalarDims mapPools request.inputs request.outputs >>= report) s =
      ⟨[phasesEnd.status], state.memory, state.mModelInfo.mOutputShapes⟩ := by
  have hsilent := (quiet_phases hmap scalarDims request.inputs request.outputs).selected_nil
    (executionAnswer pm b) s
  obtain ⟨hstatus, hstate⟩ := hreport pm b phasesEnd
    (exec (executionAnswer pm b)
      (phases scalarDims mapPools request.inputs request.outputs) s).state husual
  have hfront := congrArg (List.map ExecutionNotification.status) hsilent
  unfold pathEnd
  rw [exec_bind_ok h]
  simp only [Ran.selected_after, Ran.state_after, List.map_append]
  rw [hstate, hstatus]
  exact PathEnd.ext (congrArg (· ++ _) hfront) rfl rfl

theorem pathEnd_of_error (hmap : MapsPools pm b request.pools mapPools) {e : ExecutionStop}
    (h : (exec (executionAnswer pm b)
      (phases scalarDims mapPools request.inputs request.outputs) s).outcome = .error e) :
    let state := (exec (executionAnswer pm b)
      (phases scalarDims mapPools request.inputs request.outputs) s).state
    pathEnd pm b (phases scalarDims mapPools request.inputs request.outputs >>= report) s =
      ⟨[], state.memory, state.mModelInfo.mOutputShapes⟩ := by
  have hsilent := (quiet_phases hmap scalarDims request.inputs request.outputs).selected_nil
    (executionAnswer pm b) s
  unfold pathEnd
  rw [exec_bind_error h]
  exact PathEnd.ext (congrArg (List.map ExecutionNotification.status) hsilent) rfl rfl

/-- A path with these phases leaves what `requestEnd` says. -/
theorem pathEnd_phases (hmap : MapsPools pm b request.pools mapPools)
    (hstatus : ∀ status, (exec (executionAnswer pm b) mapPools s).outcome = .ok status →
      status = .none ∨ status = .generalFailure)
    (hreport : TellsStatus report) :
    pathEnd pm b (phases scalarDims mapPools request.inputs request.outputs >>= report) s =
      pm.requestEnd b scalarDims request s := by
  unfold requestEnd
  cases hmaps : mapsAll b.maps 0 request.pools with
  | false =>
      obtain ⟨status, mRequestPoolInfos, mappings, houtcome, hstate, hmapped, -⟩ := hmap.returns s
      have hfails : status ≠ .none := fun hnone => by simp [hmapped.mp hnone] at hmaps
      have hgeneral : status = .generalFailure := (hstatus status houtcome).resolve_left hfails
      have hphases : (exec (executionAnswer pm b)
          (phases scalarDims mapPools request.inputs request.outputs) s).outcome =
            .ok (.unmapped status) := by
        rw [phases, exec_bind_ok houtcome, if_pos hfails]
        rfl
      obtain ⟨-, hmemory, hshapes⟩ := @phases_unmapped pm b request.pools s scalarDims mapPools
        request.inputs request.outputs hmap hmaps
      have husual : (PhasesEnd.unmapped status).Usual := hgeneral
      rw [pathEnd_of_ok hmap hreport husual hphases, hmemory, hshapes]
      rfl
  | true =>
      by_cases hinputs : pm.InputsPass b request.pools request.inputs
      · cases hinfers : b.infers with
        | false =>
            obtain ⟨houtcome, hmemory, hshapes⟩ := @phases_notInferred pm b request.pools s
              scalarDims mapPools request.inputs request.outputs hmap hmaps hinputs hinfers
            have husual : PhasesEnd.notInferred.Usual := trivial
            rw [pathEnd_of_ok hmap hreport husual houtcome, hmemory, hshapes]
            simp [hinputs, PhasesEnd.status]
        | true =>
            simp only [not_true_eq_false, if_false, hinputs]
            cases hend : pm.requestOutputsEnd b request.pools request.outputs with
            | none =>
                obtain ⟨⟨e, he⟩, hmemory, hshapes⟩ := @phases_outputsError pm b request.pools s
                  scalarDims mapPools request.inputs request.outputs hmap hmaps hinputs hinfers hend
                rw [pathEnd_of_error hmap he, hmemory, hshapes]
                rfl
            | some all =>
                obtain ⟨houtcome, hmemory, hshapes⟩ := @phases_outputsEnd pm b request.pools s
                  scalarDims mapPools request.inputs request.outputs hmap hmaps hinputs hinfers all
                  hend
                have hrecorded : pm.requestRecorded b request =
                    pm.reachedOutputs b request.pools request.outputs
                      (List.range request.outputs.length) :=
                  pm.recordedOutputs_eq b request.pools request.outputs
                    (by rw [requestOutputsEnd] at hend; simp [hend])
                rw [requestEffect, outputsEffect_snd, ← hrecorded] at hshapes
                have husual : (if all then PhasesEnd.completed true else .insufficient).Usual := by
                  cases all
                  · trivial
                  · rfl
                rw [pathEnd_of_ok hmap hreport husual houtcome, hmemory, hshapes]
                cases all <;> rfl
      · obtain ⟨⟨e, he⟩, hmemory, hshapes⟩ := @phases_inputsError pm b request.pools s
          scalarDims mapPools request.inputs request.outputs hmap hmaps hinputs
        rw [pathEnd_of_error hmap he, hmemory, hshapes]
        simp [hinputs]

end Paths

/-! ## The paths agree -/

/-- Pools that are memories are mapped as those of HAL 1.0 are. -/
theorem setMemoryPools_hidlMemory (maps : Nat → Bool) (i : Nat) (pools : List HidlMemory)
    (poolInfos : List RunTimePoolInfo) (os : Mappings) :
    (setMemoryPools maps i (pools.map .hidlMemory) poolInfos os).1 = .none ∨
      (setMemoryPools maps i (pools.map .hidlMemory) poolInfos os).1 = .generalFailure := by
  induction pools generalizing i poolInfos os with
  | nil => exact .inl rfl
  | cons pool pools ih =>
      simp only [List.map_cons, setMemoryPools]
      cases ((poolInfos.getD i default).set pool (maps i) os).1 with
      | false => exact .inr rfl
      | true => exact ih _ _ _

section Agree

variable (pm : BasePreparedModel) (b : Behaviour) (request : Request HidlMemory) (s : SharedState)

theorem hidlMemories_status (status : ErrorStatus)
    (h : (exec (executionAnswer pm b)
      (BasePreparedModel.issue (.setRunTimePoolInfos request.pools)) s).outcome = .ok status) :
    status = .none ∨ status = .generalFailure := by
  have hstatus :
      (s.mModelInfo.setRunTimePoolInfosFromHidlMemories b.maps request.pools s.mappings).1 =
        status := Except.ok.inj h
  rw [← hstatus]
  unfold RuntimeInfo.setRunTimePoolInfosFromHidlMemories
  simp only
  split
  · exact .inl rfl
  · exact .inr rfl

theorem pathEnd_asyncExecute :
    pathEnd pm b (asyncExecute request) s = pm.requestEnd b true request s :=
  pathEnd_phases (mapsPools_hidlMemories pm b request.pools) (hidlMemories_status pm b request s)
    asyncReport_tellsStatus

theorem pathEnd_executeSynchronously :
    pathEnd pm b (executeSynchronously true request) s = pm.requestEnd b true request s := by
  rw [executeSynchronously_eq]
  exact pathEnd_phases (mapsPools_hidlMemories pm b request.pools)
    (hidlMemories_status pm b request s) syncReport_tellsStatus

theorem waitFor_signaled {fences : List Fence} (h : ∀ fence ∈ fences, fence = .signaled) :
    waitFor fences = .none := by
  induction fences with
  | nil => rfl
  | cons fence fences ih =>
      obtain rfl := h fence List.mem_cons_self
      exact ih fun fence' hmem => h fence' (List.mem_cons_of_mem _ hmem)

theorem pathEnd_executeFenced {fences : List Fence} (h : ∀ fence ∈ fences, fence = .signaled) :
    pathEnd pm b (executeFenced true false fences request.convertToV1_3) s =
      pm.requestEnd b false request s := by
  have hprogram : executeFenced true false fences request.convertToV1_3 =
      phases_1_3 request.convertToV1_3 >>= fencedReport := by
    unfold executeFenced
    rw [waitFor_signaled h]
    rfl
  have hpools : request.convertToV1_3.pools.map MemoryPool.convertToV1_0 = request.pools := by
    simp [Request.convertToV1_3, Function.comp_def, MemoryPool.convertToV1_0]
  have hmap := mapsPools_memoryPools pm b request.convertToV1_3.pools
  rw [hpools] at hmap
  rw [hprogram]
  refine pathEnd_phases hmap (fun status hstatus => ?_) fencedReport_tellsStatus
  obtain rfl := Except.ok.inj hstatus
  exact setMemoryPools_hidlMemory _ _ _ _ _

end Agree

/-- **The three paths agree** on a request, in every state and whatever the system
and the engine do, exactly when its execution does not get to record a blob
without dimensions for an output of one dimension other than 1. -/
theorem pathsAgree_iff (pm : BasePreparedModel) (b : Behaviour) {fences : List Fence}
    (hfences : ∀ fence ∈ fences, fence = .signaled) (request : Request HidlMemory)
    (s : SharedState) :
    PathsAgree pm b fences request s ↔
      (Infers pm b true request →
        ∀ i ∈ pm.requestRecorded b request,
          ¬ pm.ScalarMismatch s.mModelInfo.mOutputShapes i) := by
  have hnodup : (pm.requestRecorded b request).Nodup :=
    (pm.recordedOutputs_sublist b _ _ _).nodup List.nodup_range
  have hfenced : PathsAgree pm b fences request s ↔
      pm.requestEnd b false request s = pm.requestEnd b true request s := by
    rw [← pathEnd_executeFenced pm b request s hfences, ← pathEnd_asyncExecute]
    refine ⟨PathsAgree.fenced, fun h => ⟨?_, h⟩⟩
    rw [pathEnd_executeSynchronously, pathEnd_asyncExecute]
  rw [hfenced, ← @foldl_shapesAfter_scalar pm request.outputs _ _ hnodup]
  by_cases hinfers : Infers pm b true request
  · rcases hinfers with ⟨-, hmaps, hinputs, hb⟩
    have hmemory : (pm.requestEffect b request.pools false request.inputs request.outputs s).1 =
        (pm.requestEffect b request.pools true request.inputs request.outputs s).1 :=
      pm.outputsEffect_fst b request.pools false true _ _ _ _ _ _
    simp only [requestEnd, hmaps, hinputs, hb, not_true_eq_false, if_false, hmemory]
    constructor
    · intro h _
      exact congrArg PathEnd.mOutputShapes h
    · intro h
      rw [h ⟨rfl, hmaps, hinputs, hb⟩]
  · refine iff_of_true ?_ fun h => absurd h hinfers
    unfold requestEnd
    by_cases hmaps : mapsAll b.maps 0 request.pools = true
    · by_cases hinputs : pm.InputsPass b request.pools request.inputs
      · have hb : ¬ b.infers = true := fun hb => hinfers ⟨rfl, hmaps, hinputs, hb⟩
        rw [if_pos hb, if_pos hb]
      · rw [if_pos hinputs, if_pos hinputs]
    · rw [if_pos hmaps, if_pos hmaps]

/-- They agree on the request of the reshape. -/
theorem reshapeRequest_pathsAgree :
    PathsAgree reshapePreparedModel .permissive [.signaled] (reshapeRequest 1 2) reshapeStart := by
  refine (pathsAgree_iff _ _ (fun fence hfence => ?_) _ _).mpr fun _ i _ => ?_
  · exact List.mem_singleton.mp hfence
  · intro hboth
    rcases hboth with ⟨-, hdims, -⟩
    cases hdims

/-- The reshape with an output whose dimension is left open. -/
def openReshapeModel : Model :=
  { reshapeModel with
    operands := reshapeModel.operands.set 2
      { type := .tensorFloat32, dimensions := [0], lifetime := .subgraphOutput } }

/-- Where the network gives a scalar for an output whose dimension the request
fixes, `executeFenced` leaves the dimension open. -/
theorem scalarOutput_pathsDiffer :
    ¬ ∀ (pm : BasePreparedModel) (b : Behaviour) (fences : List Fence)
      (request : Request HidlMemory) (s : SharedState),
      (∀ fence ∈ fences, fence = .signaled) → PathsAgree pm b fences request s := by
  intro h
  have hpaths := h
    { reshapePreparedModel with mModel := openReshapeModel, outputDims := fun _ => [] }
    .permissive []
    { reshapeRequest 1 2 with
      outputs := [{ location := { poolIndex := 1, length := 4 }, dimensions := [1] }] }
    { reshapeStart with
      mModelInfo := { reshapeStart.mModelInfo with
        mOutputShapes := initialOutputShapes openReshapeModel } }
    (by simp)
  have hshapes : [0] = [1] := congrArg
    (fun pathEnd => (pathEnd.mOutputShapes.getD 0 default).dimensions) hpaths.fenced
  exact absurd hshapes (by decide)

end NnHal
