import NnHal.DeliveredValues
import NnHal.Interleavings

/-!
# Requests at the same time get their own values

The threads that `execute` starts share the table of the request pools and the
blobs.  A request that fills its blobs leaves no byte of another input in them, so
one condition on the order of the phases is enough: that a copy or an inference is
made by the request that mapped its pools last.  Then every request that succeeds
gets what the model makes of its own inputs.
-/

namespace NnHal

open Command Runs Tensors StraightLine BasePreparedModel

/-! ## Blobs that no input is copied into -/

/-- The copies of inputs are those of arguments below the number. -/
def ExecutionCmd.copiesBelow (count : Nat) : ExecutionCmd → Bool
  | .copyInput _ i => i < count
  | _ => true

section Copies

variable {pm : BasePreparedModel} {b : Behaviour} {s s' : SharedState} {count : Nat}

theorem all_copiesBelow_copyInputs (inputs : List RequestArgument) {is : List Nat}
    (h : ∀ i ∈ is, i < count) :
    All (fun c => c.copiesBelow count = true) (copyInputs inputs is) := by
  induction is with
  | nil => trivial
  | cons i is ih =>
      refine All.bind (all_perform (decide_eq_true (h i List.mem_cons_self))) fun _ => ?_
      exact ih fun j hj => h j (List.mem_cons_of_mem _ hj)

theorem copiesBelow_of_inputCopy {c : ExecutionCmd} (h : c.inputCopy = none) :
    c.copiesBelow count = true := by
  cases c with
  | copyInput arguments i => cases h
  | _ => rfl

theorem copiesBelow_of_reports {c : ExecutionCmd} (h : c.reports = true) :
    c.copiesBelow count = true := by
  cases c with
  | copyInput arguments i => cases h
  | _ => rfl

/-- A request copies as many inputs as it has. -/
theorem all_copiesBelow_asyncExecute {request : Request HidlMemory}
    (h : request.inputs.length = count) :
    All (fun c => c.copiesBelow count = true) (asyncExecute request) := by
  have hreport : ∀ phasesEnd, All (fun c => c.copiesBelow count = true) (asyncReport phasesEnd) :=
    fun phasesEnd => (all_reports_asyncReport phasesEnd).mono fun _ => copiesBelow_of_reports
  have hprogram : asyncExecute request =
      phases true (BasePreparedModel.issue (.setRunTimePoolInfos request.pools)) request.inputs
        request.outputs >>= asyncReport := rfl
  rw [hprogram]
  refine All.bind (All.bind (all_perform rfl) fun status => ?_) hreport
  split
  · trivial
  · refine All.bind (all_copiesBelow_copyInputs _ fun i hi => ?_) fun _ => ?_
    · exact h ▸ List.mem_range.mp hi
    · exact (quiet_inferPhases true request.outputs).all.mono
        fun _ => copiesBelow_of_inputCopy

/-- The copy of an input leaves the other blobs alone. -/
theorem copyInput_other {arguments : List RequestArgument} {i : Nat} {name : String}
    (h : s.copyInput pm b arguments i = .ok ((), s'))
    (hname : pm.inputNodeName i ≠ "" → pm.inputNodeName i ≠ name) :
    s'.inputBlobs name = s.inputBlobs name := by
  rw [copyInput_written h]
  cases hwritten : s.inputWritten pm b arguments i with
  | none => rfl
  | some bytes =>
      have hnamed : pm.inputNodeName i ≠ "" := by
        intro hempty
        rw [SharedState.inputWritten, if_pos (.inl hempty)] at hwritten
        cases hwritten
      exact Function.update_of_ne (Ne.symm (hname hnamed)) _ _

/-- A blob only changes where an input is copied into it. -/
theorem executionAnswer_other {c : ExecutionCmd} {r : c.Answer} {name : String}
    (hc : c.copiesBelow count = true) (h : executionAnswer pm b c s = .ok (r, s'))
    (hname : ∀ i < count, pm.inputNodeName i ≠ "" → pm.inputNodeName i ≠ name) :
    s'.inputBlobs name = s.inputBlobs name := by
  cases c with
  | copyInput arguments i => exact copyInput_other h (hname i (of_decide_eq_true hc))
  | copyOutput scalarDims arguments i =>
      obtain ⟨mOperands, memory, rfl⟩ := copyOutput_frame h
      rfl
  | infer =>
      have hs' : (s.infer pm b).2 = s' := congrArg Prod.snd (Except.ok.inj h)
      rw [← hs']
      unfold SharedState.infer
      split <;> rfl
  | updateRequestPoolInfos | getOutputShapes | notify n => rw [executionAnswer_reports rfl h]
  | setRunTimePoolInfos pools | setRunTimeMemoryPools pools =>
      cases h
      rfl

end Copies

/-! ## One request after another -/

namespace Executions

variable {K : Type} (x : Executions K)

/-- Every request suits the prepared model, and its inputs lie in its pools. -/
structure Suited : Prop where
  suits : ∀ k, (ExecuteCall.execute true (x.request k)).Suits x.pm x.first
  inPools : ∀ k, ∀ arg ∈ (x.request k).inputs, arg.InPools (x.request k).pools

/-- A copy or an inference is that of the request that mapped its pools last. -/
def Exclusive (w : Threads SharedState ExecutionCmd ExecutionCmd.Answer K × Option K) (k : K) :
    Prop :=
  ∀ c, w.1.next k = some c → c.works = true → w.2 = some k

/-- The threads copy inputs of the model only, and the blobs of other names are as they
were at first. -/
structure Kept (w : Threads SharedState ExecutionCmd ExecutionCmd.Answer K × Option K) :
    Prop where
  programs : ∀ k, All (fun c => c.copiesBelow x.pm.mModel.inputIndexes.length = true)
    (w.1.programs k)
  blobs : ∀ name, (∀ i < x.pm.mModel.inputIndexes.length,
      x.pm.inputNodeName i ≠ "" → x.pm.inputNodeName i ≠ name) →
    w.1.state.inputBlobs name = x.first.inputBlobs name

variable {x} {w : Threads SharedState ExecutionCmd ExecutionCmd.Answer K × Option K} {j k : K}

theorem kept_start (hx : x.Suited) : x.Kept (x.start, none) where
  programs k := all_copiesBelow_asyncExecute (hx.suits k).inputs
  blobs _ _ := rfl

/-- A request that maps its pools fills the blobs of its inputs, and the others are as
they were. -/
theorem Kept.noInputResidue (h : x.Kept w) (hx : x.Suited) (hinv : x.Inv w)
    (hk : x.Waiting w k) : NoInputResidue x.pm (x.request k) x.first w.1.state := by
  have hsuits := hx.suits k
  intro name j
  by_cases hname : ∃ i < x.pm.mModel.inputIndexes.length,
      x.pm.inputNodeName i ≠ "" ∧ x.pm.inputNodeName i = name
  · obtain ⟨i, hi, hnamed, rfl⟩ := hname
    have hi' : i < (x.request k).inputs.length := hsuits.inputs ▸ hi
    have harg := getD_mem hi' default
    have hlength : (x.pm.inputContents (x.request k).pools w.1.state.memory (x.request k).inputs
        i).length = (x.first.inputBlobs (x.pm.inputNodeName i)).length := by
      have hinside := hsuits.inputsInside _ harg
      obtain ⟨pool, hpool, hobject⟩ := (hx.inPools k _ harg).object_mem
      have hmemory := hk.memory pool hpool
      rw [hobject] at hmemory
      rw [← hsuits.fills i hi', inputContents, hmemory]
      apply x.pm.conversions.length_inputBytes
      rw [List.length_drop]
      unfold RequestArgument.Inside at hinside
      exact Nat.le_sub_of_add_le' hinside
    by_cases hj : j < (x.first.inputBlobs (x.pm.inputNodeName i)).length
    · exact .inl ⟨i, List.mem_range.mpr hi', rfl, hnamed, hlength ▸ hj⟩
    · right
      have hblob := hinv.descends.blobs (x.pm.inputNodeName i)
      rw [List.getElem?_eq_none (by omega), List.getElem?_eq_none (by omega)]
  · right
    rw [h.blobs name fun i hi hnamed heq => hname ⟨i, hi, hnamed, heq⟩]

/-- An exclusive step disturbs no request. -/
theorem Kept.undisturbed (h : x.Kept w) (hx : x.Suited) (hinv : x.Inv w)
    (hexclusive : Exclusive w j) : x.Undisturbed w j := by
  intro c hc
  refine ⟨fun hmaps => ?_, hexclusive c hc⟩
  exact h.noInputResidue hx hinv (hinv.waiting_of_maps hc hmaps)

/-- A request that succeeds and has finished has left its results in its pools. -/
theorem Inv.memory_of_done (h : x.Inv w) (hsucceeds : x.Succeeds k)
    (hdone : w.1.programs k = .done ()) : ∀ pool ∈ (x.request k).pools,
      w.1.state.memory pool.object = x.resultMemory k pool.object := by
  intro pool hpool
  have hreports : All (fun c => c.reports = true) (w.1.programs k) := by
    rw [hdone]
    trivial
  rcases h.threads k with hwaiting | hbegun
  · have hprogram := hwaiting.program
    rw [hdone] at hprogram
    cases hprogram
  · rw [← solo_memory hreports]
    exact hbegun.endsWell hsucceeds (.inr hreports) pool hpool

variable [DecidableEq K]

theorem Kept.step (h : x.Kept w) : x.Kept (x.step w j) where
  programs k := by
    by_cases hkj : k = j
    · subst hkj
      exact Threads.all_step (h.programs k)
    · have hprogram : (x.step w j).1.programs k = w.1.programs k :=
        Threads.step_programs_of_ne hkj
      exact hprogram ▸ h.programs k
  blobs name hname := by
    refine Threads.step_preserves (I := fun s : SharedState =>
      s.inputBlobs name = x.first.inputBlobs name) (fun c r s' hc hanswer hs => ?_)
        (h.blobs name hname)
    have hbelow := Threads.next_of_all (h.programs j) hc
    exact (executionAnswer_other hbelow hanswer hname).trans hs

/-- **Run.**  Exclusive steps keep the invariants of the threads. -/
theorem inv_of_exclusive (hx : x.Suited) (hapart : x.Apart) {schedule : List K}
    (h : Checked Exclusive x.step (x.start, none) schedule) :
    x.Inv (schedule.foldl x.step (x.start, none)) := by
  have hboth := h.invariant (I := fun w => x.Inv w ∧ x.Kept w) ⟨inv_start, kept_start hx⟩
    fun w j hw hexclusive =>
      ⟨hw.1.step hapart (hw.2.undisturbed hx hw.1 hexclusive), hw.2.step⟩
  exact hboth.1

/-! ## The values of each request -/

variable {M : Meaning ℝ} {ng : Ngraph} {info : NnapiModelInfo} {device : IntelDeviceType}
variable {function : NgraphFunction} {format : Node → Format ℝ} {env : Environment (Tensor ℝ)}
variable {inputs : Nat → Tensor ℝ}

/-- **Requests at the same time.**  A model has been prepared from the graph of the
driver, and requests that suit it are executed by threads of their own, in any order of
their phases in which a copy or an inference is made by the request that mapped its
pools last.  Then the buffers of every request that succeeds and has finished hold the
values that the operations of the model make of its own inputs. -/
theorem concurrent_executions_deliver (hapart : x.Apart) (hsuited : x.Suited)
    {schedule : List K} (hexclusive : Checked Exclusive x.step (x.start, none) schedule)
    (hM : M.Documented) (hng : ng.Infers M) (hfeeds : M.Feeds inputs) (hdevice : device ≠ .vpu)
    (hmodel : info.mModel.WellFormed) (hwrites : info.mModel.WritesOutputs)
    (hsized : ∀ i ∈ info.getModelInputIndexes,
      NgraphNetworkCreator.zeroSized (info.getOperand i) = false)
    (hadmits : ∀ i ∈ info.getModelInputIndexes, info.Admits i (inputs i))
    (heval : info.evaluate inputs = some env)
    (hgraph : (NgraphNetworkCreator.construct info device).1.generateGraph
      (NgraphNetworkCreator.construct info device).2 ng = .ok (some function))
    (hpm : x.pm.PreparedFrom info device ng) (hengine : x.pm.Computes ng M format function)
    (hprovides : (ExecuteCall.execute true (x.request k)).Provides x.pm info format x.first inputs)
    (hsucceeds : x.Succeeds k)
    (hdone : (schedule.foldl x.step (x.start, none)).1.programs k = .done ()) :
    ∀ i < (x.request k).outputs.length, ∃ node y, some node ∈ function.results ∧
      env (x.pm.outIndex i) = some y ∧
        (x.pm.conversions.clientOutput (x.pm.outputType i) (format node)).Holds
          (((x.request k).outputs.getD i default).region (x.request k).pools
            (schedule.foldl x.step (x.start, none)).1.state.memory) y := by
  have hmemory := (inv_of_exclusive hsuited hapart hexclusive).memory_of_done hsucceeds hdone
  obtain ⟨hrun, -, hresults⟩ := generateGraph_eq_some hgraph
  have hcarries := graphRun_carries hM hng hfeeds hdevice hmodel hsized heval hrun
  have hsuits := hsuited.suits k
  have hnamed := outputs_named hpm hcarries hresults hmodel hwrites heval hengine hsuits
  have hcopied : ∀ i ∈ List.range (x.request k).outputs.length,
      ((x.request k).outputs.getD i default).InPools (x.request k).pools ∧
        x.pm.Sufficient (x.request k).outputs i := by
    intro i hi
    obtain ⟨-, hpool, ⟨hmismatch, -⟩ | ⟨-, hsufficient, -⟩⟩ :=
      outputCopy_of_named (hnamed i hi) (hsucceeds.copied i hi)
    · cases hmismatch
    · exact ⟨hpool, hsufficient⟩
  intro i hi
  obtain ⟨node, y, hresult, hy, hheld⟩ := copied_outputs_hold hM hng hfeeds hdevice hmodel hwrites
    hsized hadmits heval hgraph hpm hengine hsuits hprovides (fun i hi => (hcopied i hi).2) i hi
  refine ⟨node, y, hresult, hy, ?_⟩
  obtain ⟨pool, hpool, hobject⟩ := (hcopied i (List.mem_range.mpr hi)).1.object_mem
  have hsame := hmemory pool hpool
  rw [hobject] at hsame
  unfold RequestArgument.region at hheld ⊢
  rw [hsame]
  exact hheld

/-! ### The small model, executed twice at the same time -/

/-- Two requests, each with two memories of its own. -/
def doublingExecutions : Executions Bool where
  pm := doublingPreparedModel
  behaviour _ := .permissive
  request second :=
    { inputs := [{ location := { poolIndex := 0, length := 8 } }]
      outputs := [{ location := { poolIndex := 1, length := 8 } }]
      pools :=
        [{ name := .ashmem, size := 8, object := if second then 3 else 1 },
          { name := .ashmem, size := 8, object := if second then 4 else 2 }] }
  first := { doublingStart with
    memory
      | 1 | 3 => oneBytes ++ oneBytes
      | _ => List.replicate 8 0 }

theorem doublingExecutions_apart : doublingExecutions.Apart := by
  intro j k hjk
  cases j <;> cases k <;> first | exact absurd rfl hjk | decide

theorem doublingExecutions_suited : doublingExecutions.Suited where
  suits k := by
    cases k <;>
      exact ⟨rfl, rfl, by decide, by decide, by decide, by decide, by decide⟩
  inPools k := by cases k <;> decide

theorem doublingExecutions_succeeds (k : Bool) : doublingExecutions.Succeeds k where
  infers := by cases k <;> exact ⟨rfl, rfl, by decide, rfl⟩
  copied := by cases k <;> decide

/-- The second request maps its pools when the first has copied its output, and the
first one reports after that. -/
def doublingSchedule : List Bool :=
  List.replicate 4 false ++ [true, false, false, true, false] ++ List.replicate 5 true

theorem doublingSchedule_exclusive : Checked Exclusive doublingExecutions.step
    (doublingExecutions.start, none) doublingSchedule := by
  have hown : ∀ {w : Threads SharedState ExecutionCmd ExecutionCmd.Answer Bool × Option Bool}
      {k : Bool} {c : ExecutionCmd}, w.1.next k = some c → (c.works = true → w.2 = some k) →
        Exclusive w k := by
    intro w k c hc hworks c' hc'
    obtain rfl : c = c' := Option.some.inj (hc.symm.trans hc')
    exact hworks
  exact ⟨hown rfl nofun, hown rfl fun _ => rfl, hown rfl fun _ => rfl, hown rfl fun _ => rfl,
    hown rfl nofun, hown rfl nofun, hown rfl nofun, hown rfl fun _ => rfl, hown rfl nofun,
    hown rfl fun _ => rfl, hown rfl fun _ => rfl, hown rfl nofun, hown rfl nofun, hown rfl nofun,
    trivial⟩

theorem doublingSchedule_done (k : Bool) :
    (doublingSchedule.foldl doublingExecutions.step
      (doublingExecutions.start, none)).1.programs k = .done () := by
  cases k <;> rfl

/-- The first request gets its values though the second maps its pools before it ends. -/
theorem doublingExecutions_deliver : ∃ node y, some node ∈ doublingFunction.results ∧
    doublingValues 3 = some y ∧
      floats.Holds (((doublingExecutions.request false).outputs.getD 0 default).region
        (doublingExecutions.request false).pools
          (doublingSchedule.foldl doublingExecutions.step
            (doublingExecutions.start, none)).1.state.memory) y := by
  refine concurrent_executions_deliver doublingExecutions_apart doublingExecutions_suited
    doublingSchedule_exclusive realReference_documented (fun _ => rfl) (fun _ _ _ => rfl)
    (show IntelDeviceType.cpu ≠ .vpu by decide) (by decide) (by decide) (by decide)
    (fun i hi => ?_) doublingInfo_evaluate doublingFunction_generated
    doublingPreparedModel_prepared doublingPreparedModel_computes ?_
    (doublingExecutions_succeeds false) (doublingSchedule_done false) 0 (by decide)
  · obtain rfl := List.mem_singleton.mp hi
    exact ⟨rfl, .f32, rfl, fun _ _ => trivial⟩
  · intro k hk param _
    obtain rfl : k = 0 := Nat.lt_one_iff.mp hk
    exact floats_hold_pair rfl floats_one rfl fun index hin => Tensor.get_ofFn hin

end Executions

end NnHal
