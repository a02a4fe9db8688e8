import NnHal.History
import NnHal.Threads

/-!
# Executions at the same time

`execute` answers at once and leaves the execution to a thread of its own.  The
threads of a prepared model share the table of the request pools and one infer
request, and nothing keeps them apart: between any two phases of one request
another one may replace the table and the blobs.

A request is served as if it were alone where every copy and every inference is
made by the request that mapped its pools last.
-/

namespace NnHal

open Command Runs BasePreparedModel

/-! ## The threads -/

/-- What `execute`, `execute_1_2` and `execute_1_3` start for an accepted
request. -/
theorem execute_accepted (request : Request HidlMemory) (request' : Request MemoryPool) :
    BasePreparedModel.execute true request = asyncExecute request ∧
      BasePreparedModel.execute_1_2 true request = asyncExecute request ∧
        BasePreparedModel.execute_1_3 true request' = asyncExecute request'.convertToV1_0 :=
  ⟨rfl, rfl, rfl⟩

/-- The command maps the pools of a request. -/
def ExecutionCmd.maps : ExecutionCmd → Bool
  | .setRunTimePoolInfos _ | .setRunTimeMemoryPools _ => true
  | _ => false

/-- The command copies or infers. -/
def ExecutionCmd.works : ExecutionCmd → Bool
  | .copyInput _ _ | .infer | .copyOutput _ _ _ => true
  | _ => false

/-- The command only reports. -/
def ExecutionCmd.reports (c : ExecutionCmd) : Bool := ¬ c.maps && ¬ c.works

/-- Accepted requests of one prepared model, each with what its execution meets,
and the state before them. -/
structure Executions (K : Type) where
  pm : BasePreparedModel
  behaviour : K → Behaviour
  request : K → Request HidlMemory
  first : SharedState

namespace Executions

variable {K : Type} [DecidableEq K] (x : Executions K)

def answers (k : K) :
    (c : ExecutionCmd) → SharedState → Except ExecutionStop (c.Answer × SharedState) :=
  executionAnswer x.pm (x.behaviour k)

def start : Threads SharedState ExecutionCmd ExecutionCmd.Answer K where
  state := x.first
  programs k := asyncExecute (x.request k)

/-- One phase of one request.  Besides the threads the run keeps who mapped the
pools last. -/
def step (w : Threads SharedState ExecutionCmd ExecutionCmd.Answer K × Option K) (k : K) :
    Threads SharedState ExecutionCmd ExecutionCmd.Answer K × Option K :=
  (w.1.step x.answers k, if (w.1.next k).any ExecutionCmd.maps then some k else w.2)

/-- The client's memory with the outputs of the request in it: what the plugin
infers from the request's own inputs. -/
def resultMemory (k : K) : Nat → List UInt8 :=
  let request := x.request k
  (List.range request.outputs.length).foldl
    (x.pm.memoryAfter request.pools request.outputs
      (x.pm.infer (x.pm.requestBlobs request.pools request.inputs x.first))) x.first.memory

/-- The plugin and the system do what the request asks for, and every output is
copied. -/
structure Succeeds (k : K) : Prop where
  infers : Infers x.pm (x.behaviour k) true (x.request k)
  copied : ∀ i ∈ List.range (x.request k).outputs.length,
    x.pm.outputCopy (x.behaviour k) (x.request k).pools (x.request k).outputs i = some .copied

/-- No memory belongs to two requests. -/
def Apart : Prop :=
  ∀ j k, j ≠ k → ∀ pool ∈ (x.request j).pools, ∀ pool' ∈ (x.request k).pools,
    pool.object ≠ pool'.object

/-- In the run, a request that succeeds and has finished has left its own results
in its pools, and no step has written into the pools of another request. -/
def Correct (schedule : List K) : Prop :=
  (∀ k, x.Succeeds k → (schedule.foldl x.step (x.start, none)).1.programs k = .done () →
      ∀ pool ∈ (x.request k).pools,
        (schedule.foldl x.step (x.start, none)).1.state.memory pool.object =
          x.resultMemory k pool.object) ∧
    Checked (fun w j => ∀ k, k ≠ j → ∀ pool ∈ (x.request k).pools,
      (x.step w j).1.state.memory pool.object = w.1.state.memory pool.object) x.step
      (x.start, none) schedule

/-- A request that maps its pools finds no byte of another input that its copies
leave in a blob; and a copy or an inference is that of the request that mapped its
pools last. -/
def Undisturbed (w : Threads SharedState ExecutionCmd ExecutionCmd.Answer K × Option K) (k : K) :
    Prop :=
  ∀ c, w.1.next k = some c →
    (c.maps = true → NoInputResidue x.pm (x.request k) x.first w.1.state) ∧
      (c.works = true → w.2 = some k)

end Executions

/-! ## A request alone -/

section Alone

variable {pm : BasePreparedModel} {b : Behaviour} {request : Request HidlMemory}
  {s : SharedState}

theorem outputsEffect_copied {pools : List HidlMemory} {outputs : List RequestArgument}
    (outputBlobs : String → List UInt8) {is : List Nat}
    (h : ∀ i ∈ is, pm.outputCopy b pools outputs i = some .copied)
    (memory : Nat → List UInt8) (shapes : List OutputShape) :
    pm.outputsEnd b pools outputs is = some true ∧
      (pm.outputsEffect b pools true outputs outputBlobs is memory shapes).1 =
        is.foldl (pm.memoryAfter pools outputs outputBlobs) memory := by
  induction is generalizing memory shapes with
  | nil => exact ⟨rfl, rfl⟩
  | cons i is ih =>
      have hi := h i List.mem_cons_self
      have his := ih fun j hj => h j (List.mem_cons_of_mem _ hj)
      simp only [outputsEnd, outputsEffect, hi, List.foldl_cons]
      exact his _ _

theorem asyncReport_memory (phasesEnd : PhasesEnd) (s : SharedState) :
    (exec (executionAnswer pm b) (asyncReport phasesEnd) s).state.memory = s.memory := by
  cases phasesEnd <;> rfl

/-- What an execution whose outputs are all copied leaves in the client's
memory. -/
theorem asyncExecute_memory (hinfers : Infers pm b true request)
    (hcopied : ∀ i ∈ List.range request.outputs.length,
      pm.outputCopy b request.pools request.outputs i = some .copied) :
    (exec (executionAnswer pm b) (asyncExecute request) s).state.memory =
      (List.range request.outputs.length).foldl
        (pm.memoryAfter request.pools request.outputs
          (pm.infer (pm.requestBlobs request.pools request.inputs s))) s.memory := by
  rcases hinfers with ⟨-, hmaps, hinputs, hinferred⟩
  obtain ⟨hend, heffect⟩ := outputsEffect_copied
    (pm.infer (pm.requestBlobs request.pools request.inputs s)) hcopied s.memory
    s.mModelInfo.mOutputShapes
  obtain ⟨houtcome, hmemory, -⟩ :=
    @phases_outputsEnd pm b request.pools s true _ request.inputs request.outputs
      (mapsPools_hidlMemories pm b request.pools) hmaps hinputs hinferred true hend
  have hprogram : asyncExecute request =
      phases true (BasePreparedModel.issue (.setRunTimePoolInfos request.pools)) request.inputs
        request.outputs >>= asyncReport := rfl
  rw [hprogram, exec_bind_ok houtcome, Ran.state_after, asyncReport_memory, hmemory]
  exact heffect

theorem RequestArgument.InPools.object_mem {pools : List HidlMemory} {arg : RequestArgument}
    (h : arg.InPools pools) : ∃ pool ∈ pools, pool.object = arg.object pools := by
  refine ⟨pools.getD arg.location.poolIndex default, ?_, rfl⟩
  rw [List.getD_eq_getElem?_getD, List.getElem?_eq_getElem h]
  exact List.getElem_mem h

/-- The copies of a request's inputs only look at its pools. -/
theorem requestBlobs_eq {first : SharedState} (hs : SharedState.Descends pm first s)
    (hinputs : pm.InputsPass b request.pools request.inputs)
    (hmemory : ∀ pool ∈ request.pools, s.memory pool.object = first.memory pool.object)
    (hresidue : NoInputResidue pm request first s) :
    pm.requestBlobs request.pools request.inputs s =
      pm.requestBlobs request.pools request.inputs first := by
  have hcontents : ∀ i ∈ List.range request.inputs.length,
      pm.inputContents request.pools s.memory request.inputs i =
        pm.inputContents request.pools first.memory request.inputs i := by
    intro i hi
    obtain ⟨pool, hpool, hobject⟩ := (hinputs i hi).1.object_mem
    have hsame := hmemory pool hpool
    rw [hobject] at hsame
    simp only [inputContents, hsame]
  unfold requestBlobs
  rw [pm.foldl_inputBlobsAfter_eq request.pools s.memory request.inputs hs.blobs hresidue]
  apply List.foldl_ext _ _ _
  intro blobs i hi
  unfold inputBlobsAfter
  rw [hcontents i hi]

/-- The copies of a request's outputs only look at its pools. -/
theorem foldl_memoryAfter_congr {pools : List HidlMemory} {outputs : List RequestArgument}
    (outputBlobs : String → List UInt8) {is : List Nat}
    (his : ∀ i ∈ is, (outputs.getD i default).InPools pools) {memory memory' : Nat → List UInt8}
    (h : ∀ pool ∈ pools, memory pool.object = memory' pool.object) :
    ∀ pool ∈ pools,
      is.foldl (pm.memoryAfter pools outputs outputBlobs) memory pool.object =
        is.foldl (pm.memoryAfter pools outputs outputBlobs) memory' pool.object := by
  induction is generalizing memory memory' with
  | nil => exact h
  | cons i is ih =>
      apply ih (fun j hj => his j (List.mem_cons_of_mem _ hj))
      intro pool hpool
      obtain ⟨pool', hpool', hobject⟩ := (his i List.mem_cons_self).object_mem
      have hsame := h pool' hpool'
      rw [hobject] at hsame
      unfold memoryAfter
      by_cases hhere : pool.object = (outputs.getD i default).object pools
      · simp only [hhere, Function.update_self, hsame]
      · simp only [Function.update_of_ne hhere, h pool hpool]

/-- They only write into its pools. -/
theorem memoryAfter_of_not_mem {pools : List HidlMemory} {outputs : List RequestArgument}
    {i : Nat} (hpool : (outputs.getD i default).InPools pools) (outputBlobs : String → List UInt8)
    (memory : Nat → List UInt8) {object : Nat} (h : ∀ pool ∈ pools, pool.object ≠ object) :
    pm.memoryAfter pools outputs outputBlobs memory i object = memory object := by
  rcases hpool.object_mem with ⟨pool, hmem, hobject⟩
  have hother : object ≠ (outputs.getD i default).object pools := by
    rw [← hobject]
    exact Ne.symm (h pool hmem)
  exact Function.update_of_ne hother _ _

theorem outputCopy_inPools {pools : List HidlMemory} {outputs : List RequestArgument} {i : Nat}
    (h : pm.outputCopy b pools outputs i = some .copied) :
    (outputs.getD i default).InPools pools := by
  by_cases hname : pm.outputNodeName i = ""
  · cases outputCopy_unnamed hname h
  · exact (outputCopy_of_named hname h).2.1

end Alone

/-! ## What is left of a request after its pools are mapped -/

section Shape

theorem all_works_copyInputs (inputs : List RequestArgument) (is : List Nat) :
    All (fun c => c.works = true) (copyInputs inputs is) := by
  induction is with
  | nil => trivial
  | cons i is ih => exact All.bind (all_perform rfl) fun _ => ih

theorem all_works_copyOutputs (scalarDims : Bool) (outputs : List RequestArgument)
    (is : List Nat) : All (fun c => c.works = true) (copyOutputs scalarDims outputs is) := by
  induction is with
  | nil => trivial
  | cons i is ih =>
      refine All.bind (all_perform rfl) fun copy => ?_
      split
      · trivial
      · exact ih

theorem all_reports_asyncReport (phasesEnd : PhasesEnd) :
    All (fun c => c.reports = true) (asyncReport phasesEnd) := by
  cases phasesEnd with
  | unmapped status | notInferred => exact all_perform rfl
  | insufficient | completed updated =>
      exact All.bind (all_perform rfl) fun outputShapes => all_perform rfl

/-- The rest of an execution copies and infers, and then only reports. -/
theorem allThen_inputPhases (scalarDims : Bool) (inputs outputs : List RequestArgument) :
    AllThen (fun c => c.works = true) (fun c => c.reports = true)
      (inputPhases scalarDims inputs outputs >>= asyncReport) := by
  have hreport := fun phasesEnd => AllThen.of_all (P := fun c => c.works = true)
    (all_reports_asyncReport phasesEnd)
  rw [inputPhases, Prog.bind_assoc]
  refine (all_works_copyInputs inputs _).bind_then fun _ => ?_
  rw [inferPhases, Prog.bind_assoc]
  refine All.bind_then (all_perform rfl) fun inferred => ?_
  split
  · exact hreport .notInferred
  · rw [outputPhases, Prog.bind_assoc]
    apply (all_works_copyOutputs scalarDims outputs _).bind_then
    intro sufficient
    split
    · exact hreport .insufficient
    · refine AllThen.of_all (All.bind (All.bind (all_perform rfl) fun updated => ?_) ?_)
      · trivial
      · exact all_reports_asyncReport

end Shape

/-! ## What a phase leaves alone -/

section Frames

variable {pm : BasePreparedModel} {b : Behaviour} {s s' : SharedState} {c : ExecutionCmd}
  {r : c.Answer}

/-- A report changes nothing. -/
theorem executionAnswer_reports (hc : c.reports = true)
    (h : executionAnswer pm b c s = .ok (r, s')) : s' = s := by
  cases c with
  | updateRequestPoolInfos =>
      simp only [executionAnswer] at h
      split at h
      · cases h
        rfl
      · cases h
  | getOutputShapes | notify n =>
      cases h
      rfl
  | _ => cases hc

/-- The table of the request pools only changes where pools are mapped. -/
theorem executionAnswer_table (hc : c.maps = false)
    (h : executionAnswer pm b c s = .ok (r, s')) :
    s'.mModelInfo.mRequestPoolInfos = s.mModelInfo.mRequestPoolInfos := by
  cases c with
  | copyInput arguments i =>
      obtain ⟨mOperands, inputBlobs, -, rfl⟩ := copyInput_frame h
      rfl
  | copyOutput scalarDims arguments i =>
      obtain ⟨mOperands, memory, rfl⟩ := copyOutput_frame h
      rfl
  | infer =>
      have hs' : (s.infer pm b).2 = s' := congrArg Prod.snd (Except.ok.inj h)
      rw [← hs']
      unfold SharedState.infer
      split <;> rfl
  | updateRequestPoolInfos | getOutputShapes | notify n => rw [executionAnswer_reports rfl h]
  | setRunTimePoolInfos pools | setRunTimeMemoryPools pools => cases hc

/-- The client's memory only changes where an output is copied, and then in a
pool of the table. -/
theorem executionAnswer_memory {pools : List HidlMemory} {object : Nat}
    (h : executionAnswer pm b c s = .ok (r, s'))
    (hmapped : c.works = true → s.Mapped pools) (hobject : ∀ pool ∈ pools, pool.object ≠ object) :
    s'.memory object = s.memory object := by
  cases c with
  | copyInput arguments i =>
      obtain ⟨mOperands, inputBlobs, -, rfl⟩ := copyInput_frame h
      rfl
  | copyOutput scalarDims arguments i =>
      have hcopyOutput : s.copyOutput pm b scalarDims arguments i = .ok (r, s') := h
      cases hcopy : pm.outputCopy b pools arguments i with
      | none =>
          obtain ⟨e, he⟩ :=
            @copyOutput_error pm b pools s (hmapped rfl) scalarDims arguments i hcopy
          rw [he] at hcopyOutput
          cases hcopyOutput
      | some copy =>
          obtain ⟨mOperands, hok⟩ :=
            @copyOutput_ok pm b pools s (hmapped rfl) scalarDims arguments i copy hcopy
          rw [hok] at hcopyOutput
          have hs' : _ = s' := congrArg Prod.snd (Except.ok.inj hcopyOutput)
          rw [← hs']
          by_cases hcopied : copy = .copied
          · simp only [hcopied, if_true]
            exact memoryAfter_of_not_mem (outputCopy_inPools (hcopied ▸ hcopy)) _ _ hobject
          · simp only [hcopied, if_false]
  | infer =>
      have hs' : (s.infer pm b).2 = s' := congrArg Prod.snd (Except.ok.inj h)
      rw [← hs']
      unfold SharedState.infer
      split <;> rfl
  | updateRequestPoolInfos | getOutputShapes | notify n => rw [executionAnswer_reports rfl h]
  | setRunTimePoolInfos pools | setRunTimeMemoryPools pools =>
      cases h
      rfl

theorem mapPools_answer (pools : List HidlMemory) (s : SharedState) :
    ∃ status s', executionAnswer pm b (.setRunTimePoolInfos pools) s = .ok (status, s') ∧
      (status = .none ↔ mapsAll b.maps 0 pools = true) ∧ (status = .none → s'.Mapped pools) := by
  obtain ⟨hstatus, htable⟩ := s.mModelInfo.setRunTimePoolInfosFromHidlMemories_mapped b.maps
    s.mappings pools
  exact ⟨_, _, rfl, hstatus, htable⟩

end Frames

/-! ## The invariant of the threads -/

namespace Executions

variable {K : Type} (x : Executions K)

/-- Alone from here on, the thread would leave its own results in its pools. -/
def EndsWell (w : Threads SharedState ExecutionCmd ExecutionCmd.Answer K) (k : K) : Prop :=
  ∀ pool ∈ (x.request k).pools,
    (w.solo x.answers k).memory pool.object = x.resultMemory k pool.object

/-- The request has not mapped its pools yet, and they are as they were. -/
structure Waiting (w : Threads SharedState ExecutionCmd ExecutionCmd.Answer K × Option K)
    (k : K) : Prop where
  program : w.1.programs k = asyncExecute (x.request k)
  notLast : w.2 ≠ some k
  memory : ∀ pool ∈ (x.request k).pools,
    w.1.state.memory pool.object = x.first.memory pool.object

/-- The request has mapped its pools, or failed to.  If it succeeds: as long as it
was the last one, or once it only reports, it would end well alone. -/
structure Begun (w : Threads SharedState ExecutionCmd ExecutionCmd.Answer K × Option K)
    (k : K) : Prop where
  shape : AllThen (fun c => c.works = true) (fun c => c.reports = true) (w.1.programs k)
  endsWell : x.Succeeds k →
    w.2 = some k ∨ All (fun c => c.reports = true) (w.1.programs k) → x.EndsWell w.1 k

structure Inv (w : Threads SharedState ExecutionCmd ExecutionCmd.Answer K × Option K) :
    Prop where
  descends : SharedState.Descends x.pm x.first w.1.state
  mapped : ∀ k, w.2 = some k → w.1.state.Mapped (x.request k).pools ∨
    All (fun c => c.reports = true) (w.1.programs k)
  threads : ∀ k, x.Waiting w k ∨ x.Begun w k

variable {x} {w : Threads SharedState ExecutionCmd ExecutionCmd.Answer K × Option K} {j k : K}

theorem inv_start : x.Inv (x.start, none) where
  descends := SharedState.descends_refl _ _
  mapped := nofun
  threads _ := .inl ⟨rfl, nofun, fun _ _ => rfl⟩

/-- What a request maps are its own pools, before anything else. -/
theorem Waiting.next (h : x.Waiting w k) :
    w.1.next k = some (.setRunTimePoolInfos (x.request k).pools) := by
  unfold Threads.next
  rw [h.program]
  rfl

/-- A command that maps is issued by a request that waits. -/
theorem Inv.waiting_of_maps (h : x.Inv w) {c : ExecutionCmd} (hc : w.1.next j = some c)
    (hmaps : c.maps = true) : x.Waiting w j := by
  apply (h.threads j).resolve_right
  intro hbegun
  rcases Threads.next_of_allThen hbegun.shape hc with hworks | ⟨hreports, -⟩
  · cases c <;> simp [ExecutionCmd.maps, ExecutionCmd.works] at hmaps hworks
  · simp [ExecutionCmd.reports, hmaps] at hreports

/-- A request that only reports ends with the memory as it is. -/
theorem solo_memory (h : All (fun c => c.reports = true) (w.1.programs k)) (object : Nat) :
    (w.1.solo x.answers k).memory object = w.1.state.memory object :=
  All.exec_preserves (I := fun s : SharedState => s.memory object = w.1.state.memory object)
    (fun _ hc _ _ _ hanswer hs => by rw [executionAnswer_reports hc hanswer, hs]) h rfl

variable [DecidableEq K]

/-- No step writes into the pools of another request. -/
theorem Inv.memory_of_ne (h : x.Inv w) (hx : x.Apart) (hallowed : x.Undisturbed w j)
    (hkj : k ≠ j) : ∀ pool ∈ (x.request k).pools,
      (x.step w j).1.state.memory pool.object = w.1.state.memory pool.object := by
  intro pool hpool
  refine Threads.step_preserves (I := fun s : SharedState =>
    s.memory pool.object = w.1.state.memory pool.object) (fun c r s' hc hanswer _ => ?_) rfl
  have hapart : ∀ other ∈ (x.request j).pools, other.object ≠ pool.object :=
    fun other hother => hx j k (Ne.symm hkj) other hother pool hpool
  refine executionAnswer_memory hanswer (fun hworks => ?_) hapart
  apply (h.mapped j ((hallowed c hc).2 hworks)).resolve_right
  intro hall
  have hreports := Threads.next_of_all hall hc
  simp [ExecutionCmd.reports, hworks] at hreports

/-- The step of a waiting request maps its pools; from there on it would end well
alone. -/
theorem Inv.step_waiting (h : x.Inv w) (hallowed : x.Undisturbed w j) (hj : x.Waiting w j) :
    (x.step w j).2 = some j ∧
      ((x.step w j).1.state.Mapped (x.request j).pools ∨
        All (fun c => c.reports = true) ((x.step w j).1.programs j)) ∧
      x.Begun (x.step w j) j := by
  obtain ⟨status, s', hanswer, hstatus, hmapped⟩ :=
    @mapPools_answer x.pm (x.behaviour j) (x.request j).pools w.1.state
  have hprogram : w.1.programs j = .call (.setRunTimePoolInfos (x.request j).pools) fun status =>
      (if status ≠ .none then pure (.unmapped status)
        else inputPhases true (x.request j).inputs (x.request j).outputs) >>= asyncReport :=
    hj.program
  have hown : x.answers j (.setRunTimePoolInfos (x.request j).pools) w.1.state =
      .ok (status, s') := hanswer
  have hstep := Threads.step_ok hprogram hown
  refine ⟨?_, ?_, ?_, fun hsucceeds _ => ?_⟩
  · simp only [step, hj.next, Option.any_some, ExecutionCmd.maps, if_true]
  · simp only [step, hstep, Function.update_self]
    by_cases hnone : status = .none
    · exact .inl (hmapped hnone)
    · rw [if_pos hnone]
      exact .inr (all_reports_asyncReport (.unmapped status))
  · simp only [step, hstep, Function.update_self]
    split
    · exact AllThen.of_all (all_reports_asyncReport (.unmapped status))
    · exact allThen_inputPhases true _ _
  · -- alone it goes on from here as it would have gone on from before
    intro pool hpool
    rcases hsucceeds with ⟨hinfers, hcopied⟩
    have hresidue := (hallowed _ hj.next).1 rfl
    simp only [step]
    rw [Threads.solo_step_self, Threads.solo, hj.program]
    simp only [answers]
    rw [asyncExecute_memory hinfers hcopied,
      requestBlobs_eq h.descends hinfers.2.2.1 hj.memory hresidue]
    exact foldl_memoryAfter_congr _ (fun i hi => outputCopy_inPools (hcopied i hi)) hj.memory
      pool hpool

/-- A request that has begun still would end well after its own step. -/
theorem Inv.step_begun (hallowed : x.Undisturbed w j) (hj : x.Begun w j) :
    x.Begun (x.step w j) j := by
  refine ⟨Threads.allThen_step hj.shape, fun hsucceeds _ => ?_⟩
  have hends : x.EndsWell w.1 j := by
    refine hj.endsWell hsucceeds ?_
    cases hnext : w.1.next j with
    | none =>
        right
        unfold Threads.next at hnext
        cases hprogram : w.1.programs j with
        | done a => trivial
        | call c f => simp [hprogram] at hnext
    | some c =>
        rcases Threads.next_of_allThen hj.shape hnext with hworks | ⟨-, hreports⟩
        · exact .inl ((hallowed c hnext).2 hworks)
        · exact .inr hreports
  intro pool hpool
  simp only [step]
  rw [Threads.solo_step_self]
  exact hends pool hpool

/-- The steps of other requests leave a request in its place. -/
theorem Inv.step_other (h : x.Inv w) (hx : x.Apart) (hallowed : x.Undisturbed w j)
    (hkj : k ≠ j) : x.Waiting (x.step w j) k ∨ x.Begun (x.step w j) k := by
  have hmemory := h.memory_of_ne hx hallowed hkj
  have hprogram : (x.step w j).1.programs k = w.1.programs k := Threads.step_programs_of_ne hkj
  rcases h.threads k with hk | hk
  · refine .inl ⟨hprogram.trans hk.program, ?_, fun pool hpool => ?_⟩
    · unfold step
      split
      · exact fun heq => hkj (Option.some.inj heq).symm
      · exact hk.notLast
    · exact (hmemory pool hpool).trans (hk.memory pool hpool)
  · refine .inr ⟨hprogram ▸ hk.shape, fun hsucceeds hlast => ?_⟩
    rcases hlast with hlast | hreports
    · -- the request is still the last one: the step was a report
      have hnotMaps : (w.1.next j).any ExecutionCmd.maps = false := by
        by_contra hmaps
        rw [Bool.not_eq_false] at hmaps
        simp only [step, hmaps, if_true, Option.some.injEq] at hlast
        exact hkj hlast.symm
      have hlast' : w.2 = some k := by simpa [step, hnotMaps] using hlast
      have hstate : (x.step w j).1.state = w.1.state := by
        refine Threads.step_preserves (I := fun s => s = w.1.state)
          (fun c r s' hc hanswer _ => ?_) rfl
        have hnoMap : c.maps = false := by simpa [hc] using hnotMaps
        have hnoWork : c.works = false := by
          by_contra hworks
          rw [Bool.not_eq_false] at hworks
          have hj := (hallowed c hc).2 hworks
          exact hkj (Option.some.inj (hlast'.symm.trans hj))
        exact executionAnswer_reports (by simp [ExecutionCmd.reports, hnoMap, hnoWork]) hanswer
      have hends := hk.endsWell hsucceeds (.inl hlast')
      unfold EndsWell Threads.solo
      rw [hprogram, hstate]
      exact hends
    · have hends := hk.endsWell hsucceeds (.inr (hprogram ▸ hreports))
      intro pool hpool
      rw [solo_memory hreports, hmemory pool hpool, ← hends pool hpool]
      exact (solo_memory (hprogram ▸ hreports) _).symm

/-- **Step.**  An undisturbed step keeps the invariant. -/
theorem Inv.step (h : x.Inv w) (hx : x.Apart) (hallowed : x.Undisturbed w j) :
    x.Inv (x.step w j) where
  descends :=
    Threads.step_preserves
      (fun c r s' _ hanswer hs => executionAnswer_descends x.pm _ x.first c _ r s' hanswer hs)
      h.descends
  mapped k hk := by
    cases hmaps : (w.1.next j).any ExecutionCmd.maps with
    | true =>
        obtain ⟨c, hc, hcmaps⟩ := (Option.any_eq_true _ _).mp hmaps
        obtain ⟨hlast, hmapped, -⟩ := h.step_waiting hallowed (h.waiting_of_maps hc hcmaps)
        obtain rfl : j = k := Option.some.inj (hlast.symm.trans hk)
        exact hmapped
    | false =>
        have hk' : w.2 = some k := by simpa [Executions.step, hmaps] using hk
        refine (h.mapped k hk').imp (fun hmapped => ?_) fun hreports => ?_
        · refine Threads.step_preserves (I := fun s : SharedState => s.Mapped (x.request k).pools)
            (fun c r s' hc hanswer hs => ?_) hmapped
          have hnoMap : c.maps = false := by simpa [hc] using hmaps
          unfold SharedState.Mapped
          rw [executionAnswer_table hnoMap hanswer]
          exact hs
        · by_cases hkj : k = j
          · subst hkj
            exact Threads.all_step hreports
          · have hprogram : (x.step w j).1.programs k = w.1.programs k :=
              Threads.step_programs_of_ne hkj
            rw [hprogram]
            exact hreports
  threads k := by
    by_cases hkj : k = j
    · subst hkj
      rcases h.threads k with hk | hk
      · exact .inr (h.step_waiting hallowed hk).2.2
      · exact .inr (Inv.step_begun hallowed hk)
    · exact h.step_other hx hallowed hkj

/-- **Undisturbed requests.**  In every interleaving of any number of requests in
which each request that maps its pools finds no byte of another input, and each
copy and inference is made by the request that mapped its pools last: a request
that succeeds and has finished has left the plugin's results on its own inputs,
and no step has written into the pools of another request. -/
theorem correct_of_undisturbed (x : Executions K) (hx : x.Apart) (schedule : List K)
    (h : Checked x.Undisturbed x.step (x.start, none) schedule) : x.Correct schedule := by
  have hstep : ∀ w j, x.Inv w → x.Undisturbed w j → x.Inv (x.step w j) :=
    fun w j hw hallowed => hw.step hx hallowed
  have hlast := h.invariant inv_start hstep
  constructor
  · intro k hsucceeds hk pool hpool
    have hdone : All (fun c => c.reports = true)
        ((schedule.foldl x.step (x.start, none)).1.programs k) := by
      rw [hk]
      trivial
    rcases hlast.threads k with hwaiting | hbegun
    · have hprogram := hwaiting.program
      rw [hk] at hprogram
      cases hprogram
    · rw [← solo_memory hdone]
      exact hbegun.endsWell hsucceeds (.inr hdone) pool hpool
  · exact (h.with_invariant inv_start hstep).mono fun w j hw k hkj =>
      hw.1.memory_of_ne hx hw.2 hkj

/-! ## Two requests -/

/-- Two requests for the reshape, each with two memories of its own. -/
def reshapeExecutions : Executions Bool where
  pm := reshapePreparedModel
  behaviour _ := .permissive
  request
    | false => reshapeRequest 1 2
    | true => reshapeRequest 3 4
  first := reshapeStart

theorem reshapeExecutions_succeeds (k : Bool) : reshapeExecutions.Succeeds k where
  infers := by cases k <;> exact ⟨rfl, rfl, by decide, rfl⟩
  copied := by cases k <;> decide

theorem reshapeExecutions_apart : reshapeExecutions.Apart := by
  intro j k hjk
  cases j <;> cases k <;> first | exact absurd rfl hjk | decide

/-- One after the other they are both served. -/
theorem reshapeExecutions_correct :
    reshapeExecutions.Correct (List.replicate 7 false ++ List.replicate 7 true) := by
  refine correct_of_undisturbed _ reshapeExecutions_apart _ ?_
  -- a step that does not map
  have hown : ∀ {w : Threads SharedState ExecutionCmd ExecutionCmd.Answer Bool × Option Bool}
      {k : Bool} {c : ExecutionCmd}, w.1.next k = some c → c.maps = false → w.2 = some k →
        reshapeExecutions.Undisturbed w k := by
    intro w k c hc hmaps hlast c' hc'
    obtain rfl : c = c' := Option.some.inj (hc.symm.trans hc')
    exact ⟨fun h => absurd h (by simp [hmaps]), fun _ => hlast⟩
  refine ⟨?_, hown rfl rfl rfl, hown rfl rfl rfl, hown rfl rfl rfl, hown rfl rfl rfl,
    hown rfl rfl rfl, hown rfl rfl rfl, ?_, hown rfl rfl rfl, hown rfl rfl rfl, hown rfl rfl rfl,
    hown rfl rfl rfl, hown rfl rfl rfl, hown rfl rfl rfl, trivial⟩
  · exact fun c hc => ⟨fun _ _ _ => .inr rfl, fun h => by cases hc; cases h⟩
  · refine fun c hc => ⟨fun _ => ?_, fun h => by cases hc; cases h⟩
    exact @reshapeRequest_noInputResidue _ [1, 1, 1, 1] 3 4 rfl rfl rfl

/-- When the second request maps its pools before the first has copied its
output, the first one's result goes into the memory of the second. -/
theorem reshapeExecutions_disturbed :
    ¬ ∀ (x : Executions Bool) (schedule : List Bool), x.Apart → x.Correct schedule := by
  intro h
  have hcorrect := h reshapeExecutions
    ([false, false, true, true] ++ List.replicate 5 false ++ List.replicate 5 true)
    reshapeExecutions_apart
  have hbytes : ([2, 2, 2, 2] : List UInt8) = [1, 1, 1, 1] :=
    hcorrect.1 false (reshapeExecutions_succeeds false) rfl
      { name := .ashmem, size := 4, object := 2 } (by decide)
  exact absurd hbytes (by decide)

end Executions

end NnHal
