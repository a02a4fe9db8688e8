import NnHal.Delivery

/-!
# Executions after other executions

The blobs of the infer request and the recorded output shapes outlive an
execution.  A request that does not fill its blobs is inferred with bytes of an
earlier one, and a request that leaves the loop over the outputs early reports
shapes of an earlier one.  Nothing else of the earlier executions reaches the
answer.
-/

namespace NnHal

open Command BasePreparedModel

/-! ## The answer to a request -/

/-- What `executeSynchronously` tells the callback, and the client's memory it
leaves. -/
def answerTo (pm : BasePreparedModel) (b : Behaviour) (valid : Bool)
    (request : Request HidlMemory) (s : SharedState) :
    List ExecutionNotification × (Nat → List UInt8) :=
  let run := exec (executionAnswer pm b) (BasePreparedModel.executeSynchronously valid request) s
  (run.selected ExecutionCmd.notification, run.state.memory)

/-- After the earlier executions the request is answered as in the first state,
with the same memory. -/
def SameAnswer (pm : BasePreparedModel) (first : SharedState)
    (history : List (Behaviour × ExecuteCall)) (b : Behaviour) (valid : Bool)
    (request : Request HidlMemory) : Prop :=
  let s := runExecutions pm first history
  answerTo pm b valid request s = answerTo pm b valid request { first with memory := s.memory }

/-- The request gets as far as its inference. -/
def Infers (pm : BasePreparedModel) (b : Behaviour) (valid : Bool)
    (request : Request HidlMemory) : Prop :=
  valid = true ∧ mapsAll b.maps 0 request.pools = true ∧
    pm.InputsPass b request.pools request.inputs ∧ b.infers = true

/-! ## Shapes -/

namespace BasePreparedModel

variable (pm : BasePreparedModel) (b : Behaviour) (pools : List HidlMemory)

/-- The outputs that the loop gets to. -/
def reachedOutputs (outputs : List RequestArgument) : List Nat → List Nat
  | [] => []
  | i :: is =>
      match pm.outputCopy b pools outputs i with
      | some .skipped | some .copied => i :: reachedOutputs outputs is
      | some .mismatch | none => [i]

/-- The shapes after the loop are those of the outputs it gets to, updated. -/
theorem outputsEffect_snd (scalarDims : Bool) (outputs : List RequestArgument)
    (outputBlobs : String → List UInt8) (is : List Nat) (memory : Nat → List UInt8)
    (shapes : List OutputShape) :
    (pm.outputsEffect b pools scalarDims outputs outputBlobs is memory shapes).2 =
      (pm.reachedOutputs b pools outputs is).foldl (pm.shapesAfter scalarDims outputs) shapes := by
  induction is generalizing memory shapes with
  | nil => rfl
  | cons i is ih =>
      simp only [outputsEffect, reachedOutputs]
      cases pm.outputCopy b pools outputs i with
      | none => rfl
      | some copy => cases copy <;> simp [ih]

/-- The memory after the loop does not depend on the shapes, nor on how they are
recorded. -/
theorem outputsEffect_fst (scalarDims scalarDims' : Bool) (outputs : List RequestArgument)
    (outputBlobs : String → List UInt8) (is : List Nat) (memory : Nat → List UInt8)
    (shapes shapes' : List OutputShape) :
    (pm.outputsEffect b pools scalarDims outputs outputBlobs is memory shapes).1 =
      (pm.outputsEffect b pools scalarDims' outputs outputBlobs is memory shapes').1 := by
  induction is generalizing memory shapes shapes' with
  | nil => rfl
  | cons i is ih =>
      simp only [outputsEffect]
      split
      · exact ih _ _ _
      · exact ih _ _ _
      · rfl
      · rfl

end BasePreparedModel

/-- Two shapes that an update with these dimensions makes the same. -/
def OutputShape.Alike (dims : List Nat) (shape shape' : OutputShape) : Prop :=
  shape.dimensions.length = shape'.dimensions.length ∧
    (dims.length < shape.dimensions.length → shape.dimensions = shape'.dimensions)

theorem OutputShape.Alike.update_eq {dims : List Nat} {shape shape' : OutputShape}
    (h : OutputShape.Alike dims shape shape') (ok : Bool) :
    (shape.update dims ok).2 = (shape'.update dims ok).2 := by
  rcases h with ⟨hrank, hdims⟩
  unfold OutputShape.update
  by_cases hshort : dims.length < shape.dimensions.length
  · rw [if_pos hshort, if_pos (hrank ▸ hshort), hdims hshort]
  · rw [if_neg hshort, if_neg (hrank ▸ hshort), hrank]

/-- An update keeps a shape alike to the first one: it keeps the rank, and
dimensions that were too few stay too few. -/
theorem OutputShape.Alike.update {dims dims' : List Nat} {shape first : OutputShape}
    (h : OutputShape.Alike dims shape first) (hdims : dims'.length ≤ dims.length) (ok : Bool) :
    OutputShape.Alike dims (shape.update dims' ok).2 first := by
  rcases h with ⟨hrank, hsame⟩
  unfold OutputShape.update
  by_cases hshort : dims'.length < shape.dimensions.length
  · rw [if_pos hshort]
    exact ⟨hrank, hsame⟩
  · rw [if_neg hshort]
    have hlength : (dims'.take shape.dimensions.length).length = shape.dimensions.length := by
      rw [List.length_take]
      omega
    refine ⟨?_, fun htoo => ?_⟩
    · rw [List.length_map, hlength, hrank]
    · rw [List.length_map, hlength] at htoo
      omega

namespace BasePreparedModel

variable (pm : BasePreparedModel)

@[simp]
theorem length_shapesAfter (scalarDims : Bool) (outputs : List RequestArgument)
    (shapes : List OutputShape) (i : Nat) :
    (pm.shapesAfter scalarDims outputs shapes i).length = shapes.length := by
  unfold shapesAfter
  split <;> simp

/-- The copy of an output changes its own shape only. -/
theorem getD_shapesAfter_of_ne (scalarDims : Bool) (outputs : List RequestArgument)
    (shapes : List OutputShape) {i j : Nat} (h : i ≠ j) :
    (pm.shapesAfter scalarDims outputs shapes i).getD j default = shapes.getD j default := by
  unfold shapesAfter
  split
  · rfl
  · simp only [List.getD_eq_getElem?_getD, List.getElem?_set_ne h]

theorem getD_shapesAfter_self (scalarDims : Bool) (outputs : List RequestArgument)
    (shapes : List OutputShape) {i : Nat} (hname : pm.outputNodeName i ≠ "")
    (hi : i < shapes.length) :
    (pm.shapesAfter scalarDims outputs shapes i).getD i default =
      ((shapes.getD i default).update (pm.reportedDims scalarDims i)
        (pm.Sufficient outputs i)).2 := by
  unfold shapesAfter
  rw [if_neg hname]
  simp only [List.getD_eq_getElem?_getD, List.getElem?_set_self hi, Option.getD_some]

/-- The shapes differ from the first ones only as updates make them differ. -/
def ShapesOf (first shapes : List OutputShape) : Prop :=
  shapes.length = first.length ∧ ∀ j,
    (pm.outputNodeName j = "" → shapes.getD j default = first.getD j default) ∧
      OutputShape.Alike (pm.reportedDims true j) (shapes.getD j default) (first.getD j default)

theorem shapesOf_refl (first : List OutputShape) : pm.ShapesOf first first :=
  ⟨rfl, fun _ => ⟨fun _ => rfl, rfl, fun _ => rfl⟩⟩

/-- Recording a scalar with one dimension only adds to the dimensions. -/
theorem length_reportedDims_le (scalarDims : Bool) (i : Nat) :
    (pm.reportedDims scalarDims i).length ≤ (pm.reportedDims true i).length := by
  cases scalarDims with
  | true => exact Nat.le_refl _
  | false =>
      unfold reportedDims
      by_cases hdims : pm.outputDims (pm.outputNodeName i) = []
      · simp [hdims]
      · simp [hdims]

theorem ShapesOf.shapesAfter {pm : BasePreparedModel} {first shapes : List OutputShape}
    (h : pm.ShapesOf first shapes) (scalarDims : Bool) (outputs : List RequestArgument) (i : Nat) :
    pm.ShapesOf first (pm.shapesAfter scalarDims outputs shapes i) := by
  rcases h with ⟨hlength, hshapes⟩
  refine ⟨by rw [length_shapesAfter, hlength], fun j => ?_⟩
  obtain ⟨hname, halike⟩ := hshapes j
  by_cases hij : i = j
  · subst hij
    by_cases hi : pm.outputNodeName i = "" ∨ shapes.length ≤ i
    · have hsame : pm.shapesAfter scalarDims outputs shapes i = shapes := by
        unfold BasePreparedModel.shapesAfter
        rcases hi with hi | hi
        · rw [if_pos hi]
        · split
          · rfl
          · exact List.set_eq_of_length_le hi
      rw [hsame]
      exact ⟨hname, halike⟩
    · obtain ⟨hnamed, hlt⟩ := not_or.mp hi
      rw [pm.getD_shapesAfter_self scalarDims outputs shapes hnamed (by omega)]
      refine ⟨fun hempty => absurd hempty hnamed, ?_⟩
      exact halike.update (pm.length_reportedDims_le scalarDims i) _
  · rw [pm.getD_shapesAfter_of_ne scalarDims outputs shapes hij]
    exact ⟨hname, halike⟩

/-- The loop over the outputs leaves the other shapes alone. -/
theorem getD_foldl_shapesAfter (scalarDims : Bool) (outputs : List RequestArgument)
    (shapes : List OutputShape) {is : List Nat} {j : Nat} (h : j ∉ is) :
    (is.foldl (pm.shapesAfter scalarDims outputs) shapes).getD j default =
      shapes.getD j default := by
  induction is generalizing shapes with
  | nil => rfl
  | cons i is ih =>
      rw [List.mem_cons, not_or] at h
      rw [List.foldl_cons, ih _ h.2, pm.getD_shapesAfter_of_ne _ _ _ (Ne.symm h.1)]

/-- The loop over the outputs makes alike shapes the same. -/
theorem foldl_shapesAfter_eq (outputs : List RequestArgument) {shapes shapes' : List OutputShape}
    {is : List Nat} (hlength : shapes.length = shapes'.length)
    (h : ∀ j, shapes.getD j default = shapes'.getD j default ∨
      j ∈ is ∧ pm.outputNodeName j ≠ "" ∧
        OutputShape.Alike (pm.reportedDims true j) (shapes.getD j default)
          (shapes'.getD j default)) :
    is.foldl (pm.shapesAfter true outputs) shapes =
      is.foldl (pm.shapesAfter true outputs) shapes' := by
  induction is generalizing shapes shapes' with
  | nil =>
      rw [List.foldl_nil, List.foldl_nil]
      apply List.ext_getElem hlength
      intro j hj hj'
      have hget := (h j).resolve_right (by simp)
      rw [List.getD_eq_getElem?_getD, List.getD_eq_getElem?_getD, List.getElem?_eq_getElem hj,
        List.getElem?_eq_getElem hj'] at hget
      exact hget
  | cons i is ih =>
      apply ih (by simpa using hlength)
      intro j
      by_cases hij : i = j
      · subst hij
        by_cases hi : pm.outputNodeName i ≠ "" ∧ i < shapes.length
        · rcases hi with ⟨hname, hlt⟩
          rw [pm.getD_shapesAfter_self true outputs shapes hname hlt,
            pm.getD_shapesAfter_self true outputs shapes' hname (by omega)]
          rcases h i with hsame | ⟨-, -, halike⟩
          · exact .inl (by rw [hsame])
          · exact .inl (halike.update_eq _)
        · -- nothing is updated on either side
          left
          by_cases hname : pm.outputNodeName i = ""
          · have hsame := (h i).resolve_right fun hor => hor.2.1 hname
            simpa [shapesAfter, hname] using hsame
          · have hout : shapes.length ≤ i := by
              rw [not_and] at hi
              exact Nat.le_of_not_lt (hi hname)
            have hend : ∀ l : List OutputShape, l.length = shapes.length →
                (pm.shapesAfter true outputs l i).getD i default = default := by
              intro l hl
              rw [List.getD_eq_getElem?_getD, List.getElem?_eq_none (by simpa [hl] using hout)]
              rfl
            rw [hend shapes rfl, hend shapes' hlength.symm]
      · rw [pm.getD_shapesAfter_of_ne true outputs shapes hij,
          pm.getD_shapesAfter_of_ne true outputs shapes' hij]
        refine (h j).imp_right ?_
        intro hboth
        rcases hboth with ⟨hmem, hrest⟩
        exact ⟨(List.mem_cons.mp hmem).resolve_left (Ne.symm hij), hrest⟩

/-- Where the loop leaves a shape alone it has to be the first one already. -/
theorem foldl_shapesAfter_eq_iff {first shapes : List OutputShape} (h : pm.ShapesOf first shapes)
    (outputs : List RequestArgument) (is : List Nat) :
    is.foldl (pm.shapesAfter true outputs) shapes = is.foldl (pm.shapesAfter true outputs) first ↔
      ∀ j ∉ is, shapes.getD j default = first.getD j default := by
  constructor
  · intro heq j hj
    rw [← pm.getD_foldl_shapesAfter true outputs shapes hj, heq,
      pm.getD_foldl_shapesAfter true outputs first hj]
  · intro hrest
    apply pm.foldl_shapesAfter_eq outputs h.1
    intro j
    obtain ⟨hunnamed, halike⟩ := h.2 j
    by_cases hj : j ∈ is ∧ pm.outputNodeName j ≠ ""
    · exact .inr ⟨hj.1, hj.2, halike⟩
    · left
      by_cases hmem : j ∈ is
      · have hname : pm.outputNodeName j = "" := by
          by_contra hname
          exact hj ⟨hmem, hname⟩
        exact hunnamed hname
      · exact hrest j hmem

end BasePreparedModel

/-! ## Input blobs -/

/-- A byte of a blob after a copy into it. -/
theorem getElem?_overwrite (dest src : List UInt8) (k : Nat) :
    (overwrite dest src)[k]? =
      if k < src.length then if k < dest.length then src[k]? else none else dest[k]? := by
  unfold overwrite
  by_cases hsrc : k < src.length
  · rw [if_pos hsrc]
    by_cases hdest : k < dest.length
    · rw [if_pos hdest, List.getElem?_append_left (by rw [List.length_take]; omega),
        List.getElem?_take_of_lt hdest]
    · rw [if_neg hdest, List.getElem?_eq_none]
      rw [List.length_append, List.length_take, List.length_drop]
      omega
  · rw [if_neg hsrc]
    by_cases hdest : k < dest.length
    · have hlength : (src.take dest.length).length = src.length := by
        rw [List.length_take]
        omega
      rw [List.getElem?_append_right (by omega), hlength, List.getElem?_drop]
      congr 1
      omega
    · rw [List.getElem?_eq_none, List.getElem?_eq_none (by omega)]
      rw [List.length_append, List.length_take, List.length_drop]
      omega

namespace BasePreparedModel

variable (pm : BasePreparedModel) (pools : List HidlMemory)

/-- The copies of these inputs write the byte of the blob. -/
def WritesByte (memory : Nat → List UInt8) (inputs : List RequestArgument) (is : List Nat)
    (name : String) (k : Nat) : Prop :=
  ∃ i ∈ is, pm.inputNodeName i = name ∧ name ≠ "" ∧
    k < (pm.inputContents pools memory inputs i).length

/-- Blobs that agree but for what the copies write agree after them. -/
theorem foldl_inputBlobsAfter_eq (memory : Nat → List UInt8) (inputs : List RequestArgument)
    {is : List Nat} {blobs blobs' : String → List UInt8}
    (hlength : ∀ name, (blobs name).length = (blobs' name).length)
    (h : ∀ name k, pm.WritesByte pools memory inputs is name k ∨
      (blobs name)[k]? = (blobs' name)[k]?) :
    is.foldl (pm.inputBlobsAfter pools memory inputs) blobs =
      is.foldl (pm.inputBlobsAfter pools memory inputs) blobs' := by
  induction is generalizing blobs blobs' with
  | nil =>
      funext name
      refine List.ext_getElem? fun k => (h name k).resolve_left ?_
      intro hboth
      rcases hboth with ⟨i, hi, -⟩
      cases hi
  | cons i is ih =>
      rw [List.foldl_cons, List.foldl_cons]
      by_cases hname : pm.inputNodeName i = ""
      · -- an input without a name is not copied
        have hskip : ∀ b, pm.inputBlobsAfter pools memory inputs b i = b := fun b => if_pos hname
        rw [hskip, hskip]
        refine ih hlength fun name k => (h name k).imp_left ?_
        intro hboth
        rcases hboth with ⟨j, hj, hwrites⟩
        rcases List.mem_cons.mp hj with rfl | hj
        · exact absurd (hwrites.1.symm.trans hname) hwrites.2.1
        · exact ⟨j, hj, hwrites⟩
      · have hcopy : ∀ b, pm.inputBlobsAfter pools memory inputs b i = Function.update b
            (pm.inputNodeName i)
            (overwrite (b (pm.inputNodeName i)) (pm.inputContents pools memory inputs i)) :=
          fun b => if_neg hname
        rw [hcopy, hcopy]
        refine ih (fun name => ?_) fun name k => ?_
        · by_cases hsame : name = pm.inputNodeName i
          · subst hsame
            simp only [Function.update_self, length_overwrite, hlength]
          · simp only [Function.update_of_ne hsame, hlength]
        · by_cases hsame : name = pm.inputNodeName i
          · subst hsame
            simp only [Function.update_self, getElem?_overwrite, hlength]
            by_cases hk : k < (pm.inputContents pools memory inputs i).length
            · exact .inr (by simp only [if_pos hk])
            · simp only [if_neg hk]
              refine (h _ k).imp_left ?_
              intro hboth
              rcases hboth with ⟨j, hj, hwrites⟩
              rcases List.mem_cons.mp hj with rfl | hj
              · exact absurd hwrites.2.2 hk
              · exact ⟨j, hj, hwrites⟩
          · simp only [Function.update_of_ne hsame]
            refine (h name k).imp_left ?_
            intro hboth
            rcases hboth with ⟨j, hj, hwrites⟩
            rcases List.mem_cons.mp hj with rfl | hj
            · exact absurd hwrites.1.symm hsame
            · exact ⟨j, hj, hwrites⟩

end BasePreparedModel

/-! ## What executions keep -/

/-- What executions make of the first state: the shapes are updates of the first
ones, and the blobs have their sizes. -/
structure SharedState.Descends (pm : BasePreparedModel) (first s : SharedState) : Prop where
  shapes : pm.ShapesOf first.mModelInfo.mOutputShapes s.mModelInfo.mOutputShapes
  blobs : ∀ name, (s.inputBlobs name).length = (first.inputBlobs name).length

theorem SharedState.descends_refl (pm : BasePreparedModel) (first : SharedState) :
    SharedState.Descends pm first first :=
  ⟨pm.shapesOf_refl _, fun _ => rfl⟩

theorem executionAnswer_descends (pm : BasePreparedModel) (b : Behaviour) (first : SharedState)
    (c : ExecutionCmd) (s : SharedState) (r : c.Answer) (s' : SharedState)
    (h : executionAnswer pm b c s = .ok (r, s')) (hs : SharedState.Descends pm first s) :
    SharedState.Descends pm first s' := by
  cases c with
  | copyInput arguments i =>
      obtain ⟨mOperands, inputBlobs, hlength, rfl⟩ := copyInput_frame h
      exact ⟨hs.shapes, fun name => (hlength name).trans (hs.blobs name)⟩
  | copyOutput scalarDims arguments i =>
      obtain ⟨mOperands, memory, rfl⟩ := copyOutput_frame h
      exact ⟨hs.shapes.shapesAfter scalarDims arguments i, hs.blobs⟩
  | infer =>
      have hs' : (s.infer pm b).2 = s' := congrArg Prod.snd (Except.ok.inj h)
      unfold SharedState.infer at hs'
      split at hs'
      · exact hs' ▸ ⟨hs.shapes, hs.blobs⟩
      · exact hs' ▸ hs
  | updateRequestPoolInfos =>
      simp only [executionAnswer] at h
      split at h
      · cases h
        exact hs
      · cases h
  | setRunTimePoolInfos pools | setRunTimeMemoryPools pools =>
      cases h
      exact ⟨hs.shapes, hs.blobs⟩
  | getOutputShapes | notify n =>
      cases h
      exact hs

theorem runExecutions_descends (pm : BasePreparedModel)
    (history : List (Behaviour × ExecuteCall)) {first s : SharedState}
    (hs : SharedState.Descends pm first s) :
    SharedState.Descends pm first (runExecutions pm s history) := by
  induction history generalizing s with
  | nil => exact hs
  | cons execution history ih =>
      exact ih (exec_preserves (executionAnswer_descends pm execution.1 first) _ hs)

/-! ## The answer, case by case -/

/-- A report leaves the client's memory alone. -/
theorem syncReport_memory (pm : BasePreparedModel) (b : Behaviour) (phasesEnd : PhasesEnd)
    (s : SharedState) :
    (exec (executionAnswer pm b) (syncReport phasesEnd) s).state.memory = s.memory := by
  cases phasesEnd with
  | unmapped status | notInferred | insufficient => rfl
  | completed updated => cases updated <;> rfl

section Answers

variable {pm : BasePreparedModel} {b : Behaviour} {request : Request HidlMemory} {s : SharedState}

/-- Where the phases return, `executeSynchronously` reports their end. -/
theorem answerTo_of_ok {phasesEnd : PhasesEnd}
    (h : (exec (executionAnswer pm b) (phases_1_0 request) s).outcome = .ok phasesEnd) :
    answerTo pm b true request s =
      ((exec (executionAnswer pm b) (syncReport phasesEnd)
          (exec (executionAnswer pm b) (phases_1_0 request) s).state).selected
            ExecutionCmd.notification,
        (exec (executionAnswer pm b) (phases_1_0 request) s).state.memory) := by
  have hquiet := (quiet_phases (mapsPools_hidlMemories pm b request.pools) true request.inputs
    request.outputs).selected_nil (executionAnswer pm b) s
  unfold answerTo
  rw [executeSynchronously_eq, exec_bind_ok h]
  simp only [Ran.selected_after, Ran.state_after, syncReport_memory]
  congr 1
  exact congrArg (· ++ _) hquiet

/-- Where they do not, it reports nothing. -/
theorem answerTo_of_error {e : ExecutionStop}
    (h : (exec (executionAnswer pm b) (phases_1_0 request) s).outcome = .error e) :
    answerTo pm b true request s =
      ([], (exec (executionAnswer pm b) (phases_1_0 request) s).state.memory) := by
  have hquiet := (quiet_phases (mapsPools_hidlMemories pm b request.pools) true request.inputs
    request.outputs).selected_nil (executionAnswer pm b) s
  unfold answerTo
  rw [executeSynchronously_eq, exec_bind_error h]
  exact congrArg (·, _) hquiet

/-- A request that does not get to its inference leaves the memory alone, and its
report does not depend on the state. -/
theorem answerTo_of_not_infers {valid : Bool} (h : ¬ Infers pm b valid request) :
    ∃ notifications, ∀ s, answerTo pm b valid request s = (notifications, s.memory) := by
  have hmap := mapsPools_hidlMemories pm b request.pools
  cases hvalid : valid with
  | false => exact ⟨[{ status := .invalidArgument }], fun s => rfl⟩
  | true =>
      cases hmaps : mapsAll b.maps 0 request.pools with
      | false =>
          refine ⟨[{ status := .generalFailure }], fun s => ?_⟩
          obtain ⟨⟨status, -, houtcome⟩, hmemory, -⟩ :=
            @phases_unmapped pm b request.pools s true _ request.inputs request.outputs hmap hmaps
          rw [answerTo_of_ok houtcome]
          exact congrArg _ hmemory
      | true =>
          by_cases hinputs : pm.InputsPass b request.pools request.inputs
          · cases hinfers : b.infers with
            | false =>
                refine ⟨[{ status := .generalFailure }], fun s => ?_⟩
                obtain ⟨houtcome, hmemory, -⟩ :=
                  @phases_notInferred pm b request.pools s true _ request.inputs request.outputs
                    hmap hmaps hinputs hinfers
                rw [answerTo_of_ok houtcome]
                exact congrArg _ hmemory
            | true => exact absurd ⟨hvalid, hmaps, hinputs, hinfers⟩ h
          · refine ⟨[], fun s => ?_⟩
            obtain ⟨⟨e, he⟩, hmemory, -⟩ :=
              @phases_inputsError pm b request.pools s true _ request.inputs request.outputs
                hmap hmaps hinputs
            rw [answerTo_of_error he]
            exact congrArg _ hmemory

/-- Any other one leaves the effect of its output copies, and reports the shapes
when their loop ends. -/
theorem answerTo_of_infers {valid : Bool} (h : Infers pm b valid request) (s : SharedState) :
    let effect := pm.requestEffect b request.pools true request.inputs request.outputs s
    answerTo pm b valid request s =
      match pm.requestOutputsEnd b request.pools request.outputs with
      | none => ([], effect.1)
      | some all =>
          ([{ status := if all then .none else .outputInsufficientSize, outputShapes := effect.2 }],
            effect.1) := by
  rcases h with ⟨rfl, hmaps, hinputs, hinfers⟩
  have hmap := mapsPools_hidlMemories pm b request.pools
  cases hend : pm.requestOutputsEnd b request.pools request.outputs with
  | none =>
      obtain ⟨⟨e, he⟩, hmemory, -⟩ :=
        @phases_outputsError pm b request.pools s true _ request.inputs request.outputs
          hmap hmaps hinputs hinfers hend
      rw [answerTo_of_error he]
      exact congrArg _ hmemory
  | some all =>
      obtain ⟨houtcome, hmemory, hshapes⟩ :=
        @phases_outputsEnd pm b request.pools s true _ request.inputs request.outputs
          hmap hmaps hinputs hinfers all hend
      simp only
      rw [answerTo_of_ok houtcome, ← hshapes, ← hmemory]
      cases all <;> rfl

end Answers

/-! ## The same answer -/

/-- Every byte of an input blob that the request does not write is as it was at
first. -/
def NoInputResidue (pm : BasePreparedModel) (request : Request HidlMemory)
    (first s : SharedState) : Prop :=
  ∀ name k,
    pm.WritesByte request.pools s.memory request.inputs (List.range request.inputs.length) name k ∨
      (s.inputBlobs name)[k]? = (first.inputBlobs name)[k]?

/-- Every output that the request does not get to has the shape it had at
first. -/
def NoShapeResidue (pm : BasePreparedModel) (b : Behaviour) (request : Request HidlMemory)
    (first s : SharedState) : Prop :=
  ∀ j ∉ pm.reachedOutputs b request.pools request.outputs (List.range request.outputs.length),
    s.mModelInfo.mOutputShapes.getD j default = first.mModelInfo.mOutputShapes.getD j default

/-- **The same answer.**  After every history of executions: where the request
leaves no byte of an earlier input to its inference, it is answered as at first
exactly when it leaves no shape of an earlier execution to its report. -/
theorem sameAnswer_iff (pm : BasePreparedModel) (first : SharedState)
    (history : List (Behaviour × ExecuteCall)) (b : Behaviour) (valid : Bool)
    (request : Request HidlMemory)
    (hinputs : Infers pm b valid request →
      NoInputResidue pm request first (runExecutions pm first history)) :
    SameAnswer pm first history b valid request ↔
      (Infers pm b valid request →
        pm.requestOutputsEnd b request.pools request.outputs ≠ none →
          NoShapeResidue pm b request first (runExecutions pm first history)) := by
  have hdescends := runExecutions_descends pm history (SharedState.descends_refl pm first)
  unfold SameAnswer
  generalize runExecutions pm first history = s at hinputs hdescends ⊢
  by_cases hinfers : Infers pm b valid request
  · -- the input blobs are the same, and so is the memory
    have hblobs : pm.requestBlobs request.pools request.inputs s =
        pm.requestBlobs request.pools request.inputs { first with memory := s.memory } :=
      pm.foldl_inputBlobsAfter_eq request.pools s.memory request.inputs hdescends.blobs
        (hinputs hinfers)
    have hmemory : (pm.requestEffect b request.pools true request.inputs request.outputs s).1 =
        (pm.requestEffect b request.pools true request.inputs request.outputs
          { first with memory := s.memory }).1 := by
      unfold BasePreparedModel.requestEffect
      rw [hblobs]
      exact pm.outputsEffect_fst b request.pools true true _ _ _ _ _ _
    have hshapes : (pm.requestEffect b request.pools true request.inputs request.outputs s).2 =
          (pm.requestEffect b request.pools true request.inputs request.outputs
            { first with memory := s.memory }).2 ↔
        NoShapeResidue pm b request first s := by
      unfold BasePreparedModel.requestEffect
      rw [pm.outputsEffect_snd, pm.outputsEffect_snd]
      exact pm.foldl_shapesAfter_eq_iff hdescends.shapes request.outputs _
    simp only [answerTo_of_infers hinfers]
    cases hend : pm.requestOutputsEnd b request.pools request.outputs with
    | none => simp [hmemory]
    | some all => simp [hinfers, hmemory, ← hshapes]
  · obtain ⟨notifications, hanswer⟩ := answerTo_of_not_infers hinfers
    simp [hanswer, hinfers]

/-- The reshape's input fills its blob, whatever was in it. -/
theorem reshapeRequest_noInputResidue {s : SharedState} {bytes : List UInt8}
    {inputObject outputObject : Nat}
    (hblobs : s.inputBlobs = Function.update reshapeStart.inputBlobs "Parameter" bytes)
    (hbytes : bytes.length = 4) (hmemory : (s.memory inputObject).length = 4) :
    NoInputResidue reshapePreparedModel (reshapeRequest inputObject outputObject) reshapeStart
      s := by
  intro name k
  rw [hblobs]
  by_cases hname : name = "Parameter"
  · subst hname
    by_cases hk : k < 4
    · left
      refine ⟨0, by simp [reshapeRequest], rfl, by decide, ?_⟩
      have hcontents : (reshapePreparedModel.inputContents
          (reshapeRequest inputObject outputObject).pools s.memory
          (reshapeRequest inputObject outputObject).inputs 0) =
            ((s.memory inputObject).drop 0).take 4 := rfl
      rw [hcontents, List.drop_zero, List.length_take, hmemory]
      exact hk
    · right
      rw [Function.update_self, List.getElem?_eq_none (by omega),
        List.getElem?_eq_none (by simpa [reshapeStart] using Nat.le_of_not_lt hk)]
  · rw [Function.update_of_ne hname]
    exact .inr rfl

/-- A request that fills its blob is answered as at first. -/
theorem reshapeRequest_sameAnswer :
    SameAnswer reshapePreparedModel reshapeStart
      [(.permissive, .executeSynchronously true (reshapeRequest 1 2))] .permissive true
      (reshapeRequest 3 4) := by
  have hblobs : (runExecutions reshapePreparedModel reshapeStart
      [(.permissive, .executeSynchronously true (reshapeRequest 1 2))]).inputBlobs =
        Function.update reshapeStart.inputBlobs "Parameter" [1, 1, 1, 1] := rfl
  refine (sameAnswer_iff _ _ _ _ _ _ fun _ => ?_).mpr fun _ _ j hj => ?_
  · exact reshapeRequest_noInputResidue hblobs rfl rfl
  · cases j with
    | zero => exact absurd List.mem_cons_self hj
    | succ j => rfl

/-- A request with half of its input is inferred with the other half of the input
before it, and the client reads it in the output. -/
theorem shortRequest_reads_earlier_input :
    ¬ ∀ (pm : BasePreparedModel) (first : SharedState) (history : List (Behaviour × ExecuteCall))
      (b : Behaviour) (valid : Bool) (request : Request HidlMemory),
      SameAnswer pm first history b valid request := by
  intro h
  have hsame := h reshapePreparedModel reshapeStart
    [(.permissive, .executeSynchronously true (reshapeRequest 1 2))] .permissive true
    { reshapeRequest 3 4 with inputs := [{ location := { poolIndex := 0, length := 2 } }] }
  have hbytes : ([3, 3, 1, 1] : List UInt8) = [3, 3, 0, 0] := congrFun (congrArg Prod.snd hsame) 4
  exact absurd hbytes (by decide)

end NnHal
