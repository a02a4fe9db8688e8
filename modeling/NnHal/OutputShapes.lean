import NnHal.ThreePaths

/-!
# What is recorded of an output's shape

`updateOutputshapes` records the flag before it compares the ranks, and copies as many
dimensions as were recorded before.  The rank recorded for an output is that of the model
for good: of an output declared without dimensions none is ever recorded.

After an execution that ends with NONE, then, the reported shapes are those of the blobs
exactly where the ranks agree and every dimension has 32 bits.
-/

namespace NnHal

open Command BasePreparedModel

/-! ## One update -/

/-- The update records the dimensions and the flag and nothing else, or fails and records
nothing. -/
def RuntimeInfo.UpdatesShape (info : RuntimeInfo) (outputIndex : Nat) (outputDims : List Nat)
    (isLengthSufficient : Bool) : Prop :=
  let (updated, info') := info.updateOutputshapes outputIndex outputDims isLengthSufficient
  updated = true ∧ info' =
      { info with mOutputShapes :=
          info.mOutputShapes.set outputIndex ⟨outputDims, isLengthSufficient⟩ } ∨
    updated = false ∧ info' = info

/-- The dimensions can be recorded in the place of a shape's: there are as many, and each
has 32 bits. -/
def OutputShape.Takes (shape : OutputShape) (dims : List Nat) : Prop :=
  dims.length = shape.dimensions.length ∧ ∀ d ∈ dims, d < 2 ^ 32

instance (shape : OutputShape) (dims : List Nat) : Decidable (shape.Takes dims) :=
  inferInstanceAs (Decidable (_ ∧ _))

namespace OutputShape

variable {shape : OutputShape} {dims : List Nat} {ok : Bool}

theorem map_narrow_eq_self_iff {dims : List Nat} :
    dims.map (· % 2 ^ 32) = dims ↔ ∀ d ∈ dims, d < 2 ^ 32 := by
  induction dims with
  | nil => simp
  | cons d dims ih =>
      have hhead : d % 2 ^ 32 = d ↔ d < 2 ^ 32 :=
        ⟨fun h => h ▸ Nat.mod_lt d (Nat.two_pow_pos 32), Nat.mod_eq_of_lt⟩
      rw [List.map_cons, List.cons.injEq, ih, hhead, List.forall_mem_cons]

/-- The dimensions recorded are the ones given exactly when the shape takes them. -/
theorem update_dimensions_iff : (shape.update dims ok).2.dimensions = dims ↔ shape.Takes dims := by
  unfold OutputShape.update Takes
  by_cases hfew : dims.length < shape.dimensions.length
  · rw [if_pos hfew]
    refine iff_of_false (fun h => ?_) fun h => absurd h.1 (Nat.ne_of_lt hfew)
    exact absurd (congrArg List.length h).symm (Nat.ne_of_lt hfew)
  · rw [if_neg hfew]
    by_cases hrank : dims.length = shape.dimensions.length
    · rw [← hrank, List.take_length]
      exact map_narrow_eq_self_iff.trans (by simp)
    · refine iff_of_false (fun h => ?_) fun h => absurd h.1 hrank
      have hlength := congrArg List.length h
      rw [List.length_map, List.length_take] at hlength
      omega

theorem update_fst : (shape.update dims ok).1 = decide (shape.dimensions.length ≤ dims.length) := by
  unfold OutputShape.update
  split <;> simp <;> omega

/-- An update that fails changes nothing when the flag is the recorded one. -/
theorem update_snd_of_few (h : dims.length < shape.dimensions.length) :
    (shape.update dims ok).2 = shape ↔ shape.isSufficient = ok := by
  unfold OutputShape.update
  rw [if_pos h]
  cases shape
  simp [eq_comm]

theorem update_snd_iff (h : shape.dimensions.length ≤ dims.length) :
    (shape.update dims ok).2 = ⟨dims, ok⟩ ↔ shape.Takes dims := by
  rw [← @update_dimensions_iff shape dims ok]
  unfold OutputShape.update
  rw [if_neg (Nat.not_lt.mpr h)]
  simp

end OutputShape

/-- The update is as it should be exactly when the shape takes the dimensions, or they are
too few and the flag is the one recorded before. -/
theorem RuntimeInfo.updatesShape_iff (info : RuntimeInfo) {k : Nat} {dims : List Nat} {ok : Bool}
    {shape : OutputShape} (hshape : info.mOutputShapes[k]? = some shape) :
    info.UpdatesShape k dims ok ↔
      shape.Takes dims ∨ dims.length < shape.dimensions.length ∧ shape.isSufficient = ok := by
  obtain ⟨hk, hget⟩ := List.getElem?_eq_some_iff.mp hshape
  have hrecorded : info.mOutputShapes.getD k default = shape := by
    rw [List.getD_eq_getElem?_getD, hshape, Option.getD_some]
  have hset : ∀ shape' : OutputShape, info.mOutputShapes.set k shape' = info.mOutputShapes ↔
      shape' = shape := by
    intro shape'
    constructor
    · intro heq
      have hentry := congrArg (fun shapes : List OutputShape => shapes[k]?) heq
      simpa [hk, hget] using hentry
    · intro heq
      subst heq
      rw [← hget, List.set_getElem_self]
  have hsame : ∀ a a' : OutputShape,
      info.mOutputShapes.set k a = info.mOutputShapes.set k a' ↔ a = a' := by
    intro a a'
    refine ⟨fun heq => ?_, fun heq => by rw [heq]⟩
    have hentry := congrArg (fun shapes : List OutputShape => shapes[k]?) heq
    simpa [hk] using hentry
  have hinfo : ∀ shapes : List OutputShape,
      ({ info with mOutputShapes := shapes } : RuntimeInfo) = info ↔
        shapes = info.mOutputShapes := by
    intro shapes
    cases info
    simp
  unfold RuntimeInfo.UpdatesShape RuntimeInfo.updateOutputshapes
  simp only [hrecorded, OutputShape.update_fst, RuntimeInfo.mk.injEq, true_and,
    decide_eq_true_eq, decide_eq_false_iff_not, Nat.not_le, hsame, hinfo, hset]
  by_cases hfew : dims.length < shape.dimensions.length
  · have htakes : ¬ shape.Takes dims := fun h => absurd h.1 (Nat.ne_of_lt hfew)
    rw [OutputShape.update_snd_of_few hfew]
    simp [hfew, htakes, Nat.not_le.mpr hfew]
  · rw [OutputShape.update_snd_iff (Nat.le_of_not_lt hfew)]
    simp [hfew, Nat.le_of_not_lt hfew]

/-! ## After an execution -/

namespace BasePreparedModel

variable (pm : BasePreparedModel)

/-- The shape of the blob of an output, one of a scalar. -/
def blobShape (i : Nat) : List Nat :=
  let dims := pm.outputDims (pm.outputNodeName i)
  if dims = [] then [1] else dims

/-- A blob without dimensions holds one number. -/
def SizesScalars : Prop :=
  ∀ name, pm.outputDims name = [] → pm.outputByteSize name = 4

variable {pm}

theorem reportedDims_true (h : pm.SizesScalars) (i : Nat) :
    pm.reportedDims true i = pm.blobShape i := by
  unfold reportedDims blobShape
  by_cases hdims : pm.outputDims (pm.outputNodeName i) = []
  · have hlength : pm.actualLength i ≠ 0 := by
      rw [actualLength, h _ hdims]
      cases pm.outputType i <;> decide
    simp [hdims, hlength]
  · simp [hdims]

end BasePreparedModel

/-- Whenever the call ends with NONE, the shapes it reports of the request's outputs are
those of their blobs. -/
def ReportsBlobShapes (pm : BasePreparedModel) (call : ExecuteCall)
    (run : Ran SharedState ExecutionCmd ExecutionStop Unit) : Prop :=
  ∀ n ∈ run.selected ExecutionCmd.notification, n.status = .none →
    ∀ i < call.outputs.length, pm.outputNodeName i ≠ "" →
      ∀ shape, n.outputShapes[i]? = some shape → shape.dimensions = pm.blobShape i

section Reports

variable {pm : BasePreparedModel} {b : Behaviour} {call : ExecuteCall} {s : SharedState}

/-- The phases complete in one way only. -/
theorem requestOutputsEnd_of_completed {mapPools : Execution ErrorStatus} {updated : Bool}
    (hmap : MapsPools pm b call.pools mapPools)
    (hcompleted : (exec (executionAnswer pm b)
      (phases call.scalarDims mapPools call.inputs call.outputs) s).outcome =
        .ok (.completed updated)) :
    mapsAll b.maps 0 call.pools = true ∧ pm.InputsPass b call.pools call.inputs ∧
      b.infers = true ∧ pm.requestOutputsEnd b call.pools call.outputs = some true := by
  have hmaps : mapsAll b.maps 0 call.pools = true := by
    by_contra hnot
    obtain ⟨⟨status, -, houtcome⟩, -⟩ :=
      @phases_unmapped pm b call.pools s call.scalarDims mapPools call.inputs call.outputs hmap
        ((Bool.not_eq_true _).mp hnot)
    cases houtcome.symm.trans hcompleted
  have hreturns : ¬ (¬ pm.InputsPass b call.pools call.inputs ∨
      b.infers = true ∧ pm.requestOutputsEnd b call.pools call.outputs = none) := by
    intro hstops
    obtain ⟨e, he⟩ := phases_error hmap hmaps hstops
    cases he.symm.trans hcompleted
  obtain ⟨hinputs, hends⟩ := not_or.mp hreturns
  rw [not_not] at hinputs
  have hlate : ¬ (b.infers = false ∨
      pm.requestOutputsEnd b call.pools call.outputs = some false) := by
    intro hearly
    obtain ⟨phasesEnd, hphasesEnd, houtcome⟩ := phases_early hmap hmaps hinputs hearly
    rw [hcompleted] at houtcome
    cases houtcome
    rcases hphasesEnd with h | h <;> cases h
  obtain ⟨hinfers, hnotFalse⟩ := not_or.mp hlate
  rw [Bool.not_eq_false] at hinfers
  refine ⟨hmaps, hinputs, hinfers, ?_⟩
  cases hend : pm.requestOutputsEnd b call.pools call.outputs with
  | none => exact absurd ⟨hinfers, hend⟩ hends
  | some all =>
      cases all with
      | true => rfl
      | false => exact absurd hend hnotFalse

/-- A loop that comes to its end gets to every output. -/
theorem reachedOutputs_of_all {pools : List HidlMemory} {outputs : List RequestArgument}
    {is : List Nat} (h : pm.outputsEnd b pools outputs is = some true) :
    pm.reachedOutputs b pools outputs is = is := by
  induction is with
  | nil => rfl
  | cons i is ih =>
      simp only [outputsEnd] at h
      simp only [reachedOutputs]
      cases hi : pm.outputCopy b pools outputs i with
      | none => simp [hi] at h
      | some copy =>
          rw [hi] at h
          cases copy with
          | mismatch => cases h
          | skipped | copied => exact congrArg _ (ih h)

/-- What is recorded after the phases have completed. -/
theorem shapes_of_completed {mapPools : Execution ErrorStatus} {updated : Bool}
    (hmap : MapsPools pm b call.pools mapPools)
    (hcompleted : (exec (executionAnswer pm b)
      (phases call.scalarDims mapPools call.inputs call.outputs) s).outcome =
        .ok (.completed updated)) :
    (exec (executionAnswer pm b) (phases call.scalarDims mapPools call.inputs call.outputs)
      s).state.mModelInfo.mOutputShapes =
        (List.range call.outputs.length).foldl (pm.shapesAfter call.scalarDims call.outputs)
          s.mModelInfo.mOutputShapes := by
  obtain ⟨hmaps, hinputs, hinfers, hend⟩ := requestOutputsEnd_of_completed hmap hcompleted
  obtain ⟨-, -, hshapes⟩ := @phases_outputsEnd pm b call.pools s call.scalarDims mapPools
    call.inputs call.outputs hmap hmaps hinputs hinfers true hend
  rw [hshapes, requestEffect, outputsEffect_snd, reachedOutputs_of_all hend]

/-- A report of NONE with shapes is that of phases that completed, and tells the shapes
recorded. -/
theorem notified_shapes {report : PhasesEnd → Execution Unit}
    (hreport : report = asyncReport ∨ report = syncReport) {phasesEnd : PhasesEnd}
    {n : ExecutionNotification}
    (hn : n ∈ (exec (executionAnswer pm b) (report phasesEnd) s).selected
      ExecutionCmd.notification) (hnone : n.status = .none) :
    (∃ updated, phasesEnd = .completed updated) ∧ n.outputShapes = s.mModelInfo.mOutputShapes := by
  rcases hreport with rfl | rfl
  · cases phasesEnd with
    | unmapped status | notInferred | insufficient =>
        obtain rfl := List.mem_singleton.mp hn
        cases hnone
    | completed updated =>
        obtain rfl := List.mem_singleton.mp hn
        exact ⟨⟨updated, rfl⟩, rfl⟩
  · cases phasesEnd with
    | unmapped status | notInferred | insufficient =>
        obtain rfl := List.mem_singleton.mp hn
        cases hnone
    | completed updated =>
        cases updated with
        | true =>
            obtain rfl := List.mem_singleton.mp hn
            exact ⟨⟨true, rfl⟩, rfl⟩
        | false =>
            obtain rfl := List.mem_singleton.mp hn
            cases hnone

theorem fenced_shapes {phasesEnd : PhasesEnd} {n : ExecutionNotification}
    (hn : n ∈ (exec (executionAnswer pm b) (fencedReport phasesEnd) s).selected
      ExecutionCmd.notification) : n.outputShapes = [] := by
  cases phasesEnd with
  | unmapped status | notInferred | insufficient | completed updated =>
      obtain rfl := List.mem_singleton.mp hn
      rfl

/-- The shapes told with NONE are recorded ones. -/
theorem reported_shapes {n : ExecutionNotification}
    (hn : n ∈ (exec (executionAnswer pm b) call.program s).selected ExecutionCmd.notification)
    (hnone : n.status = .none) :
    n.outputShapes =
      if call.scalarDims then
        (List.range call.outputs.length).foldl (pm.shapesAfter true call.outputs)
          s.mModelInfo.mOutputShapes
      else [] := by
  cases hrefused : call.refused with
  | true =>
      obtain ⟨m, hm, hprogram⟩ := ExecuteCall.program_refused hrefused
      rw [hprogram] at hn
      obtain rfl := List.mem_singleton.mp hn
      exact absurd hnone hm
  | false =>
      obtain ⟨mapPools, report, hmap, hreport, hprogram⟩ :=
        ExecuteCall.program_report hrefused pm b
      have hsilent := (quiet_phases hmap call.scalarDims call.inputs call.outputs).selected_nil
        (executionAnswer pm b) s
      cases houtcome : (exec (executionAnswer pm b)
          (phases call.scalarDims mapPools call.inputs call.outputs) s).outcome with
      | error e =>
          rw [hprogram, exec_bind_error houtcome] at hn
          have hnothing : n ∈ (exec (executionAnswer pm b)
              (phases call.scalarDims mapPools call.inputs call.outputs) s).selected
              ExecutionCmd.notification := hn
          rw [hsilent] at hnothing
          cases hnothing
      | ok phasesEnd =>
          rw [hprogram, exec_bind_ok houtcome, Ran.selected_after, List.mem_append] at hn
          have hreported := hn.resolve_left fun hearly => by
            have hnothing : n ∈ (exec (executionAnswer pm b)
              (phases call.scalarDims mapPools call.inputs call.outputs) s).selected
              ExecutionCmd.notification := hearly
            rw [hsilent] at hnothing
            cases hnothing
          cases hdims : call.scalarDims with
          | false =>
              obtain rfl : report = fencedReport := by
                rcases hreport with ⟨-, htrue⟩ | ⟨-, htrue⟩ | ⟨heq, -⟩
                · cases hdims.symm.trans htrue
                · cases hdims.symm.trans htrue
                · exact heq
              exact fenced_shapes hreported
          | true =>
              have htells : report = asyncReport ∨ report = syncReport := by
                rcases hreport with ⟨heq, -⟩ | ⟨heq, -⟩ | ⟨-, hfalse⟩
                · exact .inl heq
                · exact .inr heq
                · cases hdims.symm.trans hfalse
              obtain ⟨⟨updated, rfl⟩, hshapes⟩ := notified_shapes htells hreported hnone
              rw [hshapes, shapes_of_completed hmap houtcome, hdims]
              rfl

theorem reportsBlobShapes_iff (hscalars : pm.SizesScalars)
    (hnone : ∃ n ∈ (exec (executionAnswer pm b) call.program s).selected
      ExecutionCmd.notification, n.status = .none) :
    ReportsBlobShapes pm call (exec (executionAnswer pm b) call.program s) ↔
      (call.scalarDims = true → ∀ i < call.outputs.length, pm.outputNodeName i ≠ "" →
        ∀ shape, s.mModelInfo.mOutputShapes[i]? = some shape → shape.Takes (pm.blobShape i)) := by
  have hentry : ∀ i < call.outputs.length, pm.outputNodeName i ≠ "" →
      ∀ shape, s.mModelInfo.mOutputShapes[i]? = some shape →
        ((List.range call.outputs.length).foldl (pm.shapesAfter true call.outputs)
          s.mModelInfo.mOutputShapes)[i]? =
            some (shape.update (pm.blobShape i) (pm.Sufficient call.outputs i)).2 := by
    intro i hi hname shape hshape
    have hlength : i < s.mModelInfo.mOutputShapes.length :=
      (List.getElem?_eq_some_iff.mp hshape).1
    have hget := @getD_foldl_shapesAfter_self pm call.outputs s.mModelInfo.mOutputShapes true _
      List.nodup_range i (List.mem_range.mpr hi)
    rw [getD_shapesAfter_self pm true call.outputs _ hname hlength, reportedDims_true hscalars,
      List.getD_eq_getElem?_getD, List.getD_eq_getElem?_getD, hshape, Option.getD_some] at hget
    have hbound : i < ((List.range call.outputs.length).foldl
        (pm.shapesAfter true call.outputs) s.mModelInfo.mOutputShapes).length := by
      rwa [length_foldl_shapesAfter]
    rw [List.getElem?_eq_getElem hbound, Option.getD_some] at hget
    rw [List.getElem?_eq_getElem hbound, hget]
  constructor
  · intro hreports hdims i hi hname shape hshape
    rcases hnone with ⟨n, hn, hstatus⟩
    have hshapes := reported_shapes hn hstatus
    rw [hdims, if_pos rfl] at hshapes
    have hreported := hentry i hi hname shape hshape
    rw [← hshapes] at hreported
    exact OutputShape.update_dimensions_iff.mp (hreports n hn hstatus i hi hname _ hreported)
  · intro htakes n hn hstatus i hi hname shape hshape
    have hshapes := reported_shapes hn hstatus
    cases hdims : call.scalarDims with
    | false =>
        rw [hdims] at hshapes
        rw [if_neg Bool.false_ne_true] at hshapes
        rw [hshapes] at hshape
        cases hshape
    | true =>
        rw [hdims, if_pos rfl] at hshapes
        have hlength : i < s.mModelInfo.mOutputShapes.length := by
          have hbound := (List.getElem?_eq_some_iff.mp hshape).1
          rwa [hshapes, length_foldl_shapesAfter] at hbound
        have hold : s.mModelInfo.mOutputShapes[i]? = some s.mModelInfo.mOutputShapes[i] :=
          List.getElem?_eq_getElem hlength
        have hreported := hentry i hi hname _ hold
        rw [← hshapes, hshape, Option.some.injEq] at hreported
        rw [hreported]
        exact OutputShape.update_dimensions_iff.mpr (htakes hdims i hi hname _ hold)

/-- Executions keep the ranks. -/
theorem SharedState.Descends.takes_iff {first : SharedState}
    (hs : SharedState.Descends pm first s) {i : Nat} {dims : List Nat} :
    (∀ shape, s.mModelInfo.mOutputShapes[i]? = some shape → shape.Takes dims) ↔
      ∀ shape, first.mModelInfo.mOutputShapes[i]? = some shape → shape.Takes dims := by
  rcases hs.shapes with ⟨hlength, hshapes⟩
  by_cases hi : i < first.mModelInfo.mOutputShapes.length
  · have hrank := (hshapes i).2.1
    rw [List.getD_eq_getElem?_getD, List.getD_eq_getElem?_getD, List.getElem?_eq_getElem hi,
      List.getElem?_eq_getElem (hlength ▸ hi), Option.getD_some, Option.getD_some] at hrank
    rw [List.getElem?_eq_getElem hi, List.getElem?_eq_getElem (hlength ▸ hi)]
    simp only [Option.some.injEq, forall_eq', OutputShape.Takes, hrank]
  · have hnone : first.mModelInfo.mOutputShapes[i]? = none :=
      List.getElem?_eq_none (Nat.le_of_not_lt hi)
    have hnone' : s.mModelInfo.mOutputShapes[i]? = none :=
      List.getElem?_eq_none (hlength ▸ Nat.le_of_not_lt hi)
    rw [hnone, hnone']

/-- **The recorded shapes.**  An update is as it should be exactly when the recorded rank is
that of the dimensions and each of them has 32 bits, or they are too few and the flag stays
the same.  After any executions, one that ends with NONE reports the shapes of the blobs
exactly when each of them fits into the shape that was recorded before the first. -/
theorem recordsShapes_iff (hscalars : pm.SizesScalars) :
    (∀ (info : RuntimeInfo) (k : Nat) (dims : List Nat) (ok : Bool) (shape : OutputShape),
      info.mOutputShapes[k]? = some shape →
        (info.UpdatesShape k dims ok ↔
          shape.Takes dims ∨ dims.length < shape.dimensions.length ∧ shape.isSufficient = ok)) ∧
    ∀ (first : SharedState) (history : List (Behaviour × ExecuteCall)) (b : Behaviour)
      (call : ExecuteCall),
      let run := exec (executionAnswer pm b) call.program (runExecutions pm first history)
      (∃ n ∈ run.selected ExecutionCmd.notification, n.status = .none) →
        (ReportsBlobShapes pm call run ↔
          (call.scalarDims = true → ∀ i < call.outputs.length, pm.outputNodeName i ≠ "" →
            ∀ shape, first.mModelInfo.mOutputShapes[i]? = some shape →
              shape.Takes (pm.blobShape i))) := by
  refine ⟨fun info k dims ok shape hshape => info.updatesShape_iff hshape, ?_⟩
  intro first history b call run hnone
  have hdescends := runExecutions_descends pm history (SharedState.descends_refl pm first)
  rw [reportsBlobShapes_iff hscalars hnone]
  simp only [hdescends.takes_iff]

end Reports

/-! ### An output without a rank -/

/-- The model of one reshape, its output declared without dimensions. -/
def unrankedReshapeModel : Model :=
  { reshapeModel with
    operands :=
      reshapeModel.operands.set 2 { type := .tensorFloat32, lifetime := .subgraphOutput } }

/-- What is recorded once it is prepared. -/
def unrankedInfo : RuntimeInfo :=
  (RuntimeInfo.initRuntimeInfo {} (fun _ => true) [] unrankedReshapeModel {}).1.toOption.getD {}

/-- One execution of the ranked model. -/
theorem reshapeRequest_reportsBlobShapes :
    ReportsBlobShapes reshapePreparedModel (.executeSynchronously true (reshapeRequest 1 2))
      (exec (executionAnswer reshapePreparedModel .permissive)
        (ExecuteCall.executeSynchronously true (reshapeRequest 1 2)).program
          (runExecutions reshapePreparedModel reshapeStart [])) := by
  have hscalars : reshapePreparedModel.SizesScalars := fun _ => nofun
  refine ((recordsShapes_iff hscalars).2 _ _ _ _ ⟨_, List.mem_singleton_self _, rfl⟩).mpr ?_
  intro _ i hi _ shape hshape
  obtain rfl : i = 0 := Nat.lt_one_iff.mp hi
  cases hshape
  decide

/-- Two dimensions are taken for recorded, and are not. -/
theorem unrankedOutput_unrecorded :
    ¬ ∀ (info : RuntimeInfo) (k : Nat) (dims : List Nat) (ok : Bool),
      k < info.mOutputShapes.length → info.UpdatesShape k dims ok := by
  intro h
  have hupdates := h unrankedInfo 0 [2, 3] true (by decide)
  have hshape : unrankedInfo.mOutputShapes[0]? = some ⟨[], true⟩ := by decide
  exact absurd ((unrankedInfo.updatesShape_iff hshape).mp hupdates) (by decide)

end NnHal
