import NnHal.Delivery
import NnHal.Threads

/-!
# Waiting for the inference

`IENetwork::infer` starts the inference and waits ten seconds for it, and does
not look at what the wait returns.  The device completes an inference whenever
it does, between any two steps of the driver.  Where every wait finds its
inference completed, `infer` is what the phases take it for; where one runs out,
the execution goes on to read its output blobs.
-/

namespace NnHal

open Command Runs BasePreparedModel

/-! ## The device -/

/-- What `Wait` returns. -/
inductive StatusCode
  | ok | resultNotReady
  deriving DecidableEq, Repr

/-- The calls of the infer request, besides the commands of an execution. -/
inductive DeviceCmd
  | startAsync
  | wait
  | execution (c : ExecutionCmd)

/-- `StartAsync` returns, or throws. -/
abbrev DeviceCmd.Answer : DeviceCmd → Type
  | .startAsync => Bool
  | .wait => StatusCode
  | .execution c => c.Answer

/-- `IENetwork::infer`, with whether it returns. -/
def IENetwork.infer : Prog DeviceCmd DeviceCmd.Answer Bool := do
  let started ← Prog.perform .startAsync
  if ¬ started then pure false
  else do
    let _ ← Prog.perform .wait
    pure true

/-- A command that leaves the device alone. -/
def besideDevice (c : ExecutionCmd) : Prog DeviceCmd DeviceCmd.Answer c.Answer :=
  Prog.perform (DeviceCmd.execution c)

/-- The commands of an execution, with `infer` in its steps. -/
def ExecutionCmd.onDevice : (c : ExecutionCmd) → Prog DeviceCmd DeviceCmd.Answer c.Answer
  | .infer => IENetwork.infer
  | c => besideDevice c

/-- The inference of one execution; a running one has its inputs. -/
inductive Inference
  | notStarted
  | running (inputBlobs : String → List UInt8)
  | completed

/-- What the executions share, and the inference of each. -/
structure DeviceState (K : Type) where
  shared : SharedState
  inference : K → Inference

section Device

variable {K : Type} [DecidableEq K]

/-- The answers to the execution `k`; `Wait` returns at once where the inference
is completed, and not ready when its time runs out before. -/
def deviceAnswer (pm : BasePreparedModel) (b : Behaviour) (k : K) :
    (c : DeviceCmd) → DeviceState K → Except ExecutionStop (c.Answer × DeviceState K)
  | .startAsync, t =>
      if b.infers then
        .ok (true, { t with
          inference := Function.update t.inference k (.running t.shared.inputBlobs) })
      else .ok (false, t)
  | .wait, t =>
      match t.inference k with
      | .running _ => .ok (.resultNotReady, t)
      | .notStarted | .completed => .ok (.ok, t)
  | .execution c, t =>
      match executionAnswer pm b c t.shared with
      | .ok (r, shared) => .ok (r, { t with shared })
      | .error e => .error e

/-- The inference of `k` completes. -/
def DeviceState.complete (pm : BasePreparedModel) (k : K) (t : DeviceState K) : DeviceState K :=
  match t.inference k with
  | .running inputBlobs =>
      { shared := { t.shared with outputBlobs := pm.infer inputBlobs }
        inference := Function.update t.inference k .completed }
  | .notStarted | .completed => t

/-! ## A device that is in time -/

/-- Every inference completes while its execution waits. -/
def promptAnswer (pm : BasePreparedModel) (b : Behaviour) (k : K) :
    (c : DeviceCmd) → DeviceState K → Except ExecutionStop (c.Answer × DeviceState K)
  | .wait, t => deviceAnswer pm b k .wait (t.complete pm k)
  | .startAsync, t => deviceAnswer pm b k .startAsync t
  | .execution c, t => deviceAnswer pm b k (.execution c) t

theorem onDevice_execution {c : ExecutionCmd} (hc : c ≠ .infer) :
    c.onDevice = besideDevice c := by
  cases c with
  | infer => exact absurd rfl hc
  | _ => rfl

/-- `infer` in its steps is what the phases take it for. -/
theorem exec_infer (pm : BasePreparedModel) (b : Behaviour) (k : K) (t : DeviceState K) :
    let run := exec (promptAnswer pm b k) IENetwork.infer t
    run.outcome = .ok (t.shared.infer pm b).1 ∧ run.state.shared = (t.shared.infer pm b).2 := by
  unfold SharedState.infer IENetwork.infer
  cases hinfers : b.infers with
  | false =>
      have hstart : promptAnswer pm b k .startAsync t = .ok (false, t) := by
        simp [promptAnswer, deviceAnswer, hinfers]
      rw [exec_perform_bind hstart]
      exact ⟨rfl, rfl⟩
  | true =>
      have hstart : promptAnswer pm b k .startAsync t = .ok (true, { t with
          inference := Function.update t.inference k (.running t.shared.inputBlobs) }) := by
        simp [promptAnswer, deviceAnswer, hinfers]
      have hwait : promptAnswer pm b k .wait { t with
          inference := Function.update t.inference k (.running t.shared.inputBlobs) } =
            .ok (.ok,
              { shared := { t.shared with outputBlobs := pm.infer t.shared.inputBlobs }
                inference := Function.update t.inference k .completed }) := by
        simp [promptAnswer, DeviceState.complete, deviceAnswer]
      rw [exec_perform_bind hstart, if_neg (by simp), exec_perform_bind hwait]
      exact ⟨rfl, rfl⟩

/-- **The phases in their steps.**  Where the device is in time, an execution does
in its steps what it does in its phases. -/
theorem exec_onDevice (pm : BasePreparedModel) (b : Behaviour) (k : K) {α : Type}
    (p : Execution α) (t : DeviceState K) :
    let run := exec (promptAnswer pm b k) (p.expand ExecutionCmd.onDevice) t
    run.outcome = (exec (executionAnswer pm b) p t.shared).outcome ∧
      run.state.shared = (exec (executionAnswer pm b) p t.shared).state := by
  refine exec_expand (fun c t r s h => ?_) (fun c t e h => ?_) p t
  · by_cases hc : c = .infer
    · subst hc
      have hinfer := exec_infer pm b k t
      have hanswer : t.shared.infer pm b = (r, s) := Except.ok.inj h
      rw [hanswer] at hinfer
      exact hinfer
    · have hanswer : promptAnswer pm b k (.execution c) t = .ok (r, { t with shared := s }) := by
        simp only [promptAnswer, deviceAnswer, h]
      have hrun : exec (promptAnswer pm b k) (besideDevice c) t = _ :=
        exec_call_ok hanswer
      rw [onDevice_execution hc, hrun]
      exact ⟨rfl, rfl⟩
  · by_cases hc : c = .infer
    · subst hc
      cases h
    · have hanswer : promptAnswer pm b k (.execution c) t = .error e := by
        simp only [promptAnswer, deviceAnswer, h]
      have hrun : exec (promptAnswer pm b k) (besideDevice c) t = _ :=
        exec_call_error hanswer
      rw [onDevice_execution hc, hrun]
      exact ⟨rfl, rfl⟩

end Device

/-! ## Executions and their device -/

/-- What a step of the device's client is about: it reads an output blob, or
reports NONE. -/
def ExecutionCmd.delivers : ExecutionCmd → Bool
  | .copyOutput _ _ _ => true
  | .notify n => n.status = .none
  | _ => false

def DeviceCmd.delivers : DeviceCmd → Bool
  | .execution c => c.delivers
  | .startAsync | .wait => false

/-- Calls of one prepared model, each with what its execution meets, and the state
before them. -/
structure DeviceRuns (K : Type) where
  pm : BasePreparedModel
  behaviour : K → Behaviour
  call : K → ExecuteCall
  first : SharedState

/-- A step of the driver in an execution, or the completion of its inference. -/
inductive DeviceEvent (K : Type)
  | driver (k : K)
  | completion (k : K)

namespace DeviceRuns

variable {K : Type} [DecidableEq K] (x : DeviceRuns K)

def answers (k : K) :
    (c : DeviceCmd) → DeviceState K → Except ExecutionStop (c.Answer × DeviceState K) :=
  deviceAnswer x.pm (x.behaviour k) k

def start : Threads (DeviceState K) DeviceCmd DeviceCmd.Answer K where
  state := { shared := x.first, inference := fun _ => .notStarted }
  programs k := (x.call k).program.expand ExecutionCmd.onDevice

def step (w : Threads (DeviceState K) DeviceCmd DeviceCmd.Answer K) :
    DeviceEvent K → Threads (DeviceState K) DeviceCmd DeviceCmd.Answer K
  | .driver k => w.step x.answers k
  | .completion k => { w with state := w.state.complete x.pm k }

/-- Where the driver reads an output blob or reports NONE, the execution's
inference is completed. -/
def DeliversCompleted (w : Threads (DeviceState K) DeviceCmd DeviceCmd.Answer K)
    (e : DeviceEvent K) : Prop :=
  ∀ k, e = .driver k → ∀ c, w.next k = some c → c.delivers = true →
    w.state.inference k = .completed

/-- Where the driver comes back from its wait, the inference is completed. -/
def WaitsCompleted (w : Threads (DeviceState K) DeviceCmd DeviceCmd.Answer K)
    (e : DeviceEvent K) : Prop :=
  ∀ k, e = .driver k → w.next k = some .wait → w.state.inference k = .completed

end DeviceRuns

/-! ## What is left of an execution -/

/-- The rest of an execution that has waited. -/
abbrev Waited : Prog DeviceCmd DeviceCmd.Answer Unit → Prop :=
  All fun c => c ≠ .startAsync

/-- The rest of an execution that delivers nothing. -/
abbrev Undelivering : Prog DeviceCmd DeviceCmd.Answer Unit → Prop :=
  All fun c => c ≠ .startAsync ∧ c.delivers = false

/-- The rest of an execution that has started its inference: it waits. -/
def Waiting (p : Prog DeviceCmd DeviceCmd.Answer Unit) : Prop :=
  ∃ k, p = .call .wait k ∧ ∀ r, Waited (k r)

/-- The rest of an execution that has not: it delivers nothing before. -/
def Starting : Prog DeviceCmd DeviceCmd.Answer Unit → Prop
  | .done _ => True
  | .call .startAsync k => Waiting (k true) ∧ Undelivering (k false)
  | .call .wait _ => False
  | .call (.execution c) k => c.delivers = false ∧ ∀ r, Starting (k r)

section Starting

/-- A command before the inference. -/
def ExecutionCmd.Prepares (c : ExecutionCmd) : Prop := c ≠ .infer ∧ c.delivers = false

theorem starting_expand {α : Type} {p : Execution α}
    {f : α → Prog DeviceCmd DeviceCmd.Answer Unit} (hp : All ExecutionCmd.Prepares p)
    (hf : ∀ a, Starting (f a)) : Starting (p.expand ExecutionCmd.onDevice >>= f) := by
  induction p with
  | done a => exact hf a
  | call c k ih =>
      rcases hp with ⟨⟨hinfer, hdelivers⟩, hk⟩
      simp only [Prog.expand]
      rw [onDevice_execution hinfer, Prog.bind_assoc]
      exact ⟨hdelivers, fun r => ih r (hk r)⟩

theorem Starting.of_undelivering {p : Prog DeviceCmd DeviceCmd.Answer Unit}
    (hp : All (fun c => ∃ c', c = .execution c' ∧ c'.delivers = false) p) : Starting p := by
  induction p with
  | done a => trivial
  | call c k ih =>
      rcases hp with ⟨⟨c', rfl, hdelivers⟩, hk⟩
      exact ⟨hdelivers, fun r => ih r (hk r)⟩

/-- A program without `infer` leaves the device alone. -/
theorem all_onDevice {P : ExecutionCmd → Prop} {α : Type} {p : Execution α}
    (hp : All (fun c => c ≠ .infer ∧ P c) p) :
    All (fun c => ∃ c', c = .execution c' ∧ P c') (p.expand ExecutionCmd.onDevice) := by
  apply hp.expand
  intro c hc
  rw [onDevice_execution hc.1]
  exact all_perform ⟨c, rfl, hc.2⟩

theorem starting_infer {f : Bool → Prog DeviceCmd DeviceCmd.Answer Unit}
    (hfalse : Undelivering (f false)) (htrue : Waited (f true)) :
    Starting (IENetwork.infer >>= f) :=
  ⟨⟨_, rfl, fun _ => htrue⟩, hfalse⟩

variable {pm : BasePreparedModel} {b : Behaviour} {pools : List HidlMemory}
  {mapPools : Execution ErrorStatus} {report : PhasesEnd → Execution Unit}

theorem MapsPools.prepares (h : MapsPools pm b pools mapPools) :
    All ExecutionCmd.Prepares mapPools := by
  apply h.only.all.mono
  intro c hc
  cases c with
  | setRunTimePoolInfos pools | setRunTimeMemoryPools pools => exact ⟨nofun, rfl⟩
  | _ => cases hc

theorem all_prepares_copyInputs (inputs : List RequestArgument) (is : List Nat) :
    All ExecutionCmd.Prepares (copyInputs inputs is) := by
  induction is with
  | nil => trivial
  | cons i is ih => exact All.bind (all_perform ⟨nofun, rfl⟩) fun _ => ih

theorem Reports.not_infers (h : Reports report) (phasesEnd : PhasesEnd) :
    All (fun c => c ≠ .infer) (report phasesEnd) := by
  refine (h.only phasesEnd).all.mono fun c hc => ?_
  intro heq
  subst heq
  cases hc

/-- A report of an end that is not a completion delivers nothing. -/
theorem Reports.undelivering (h : Reports report) {phasesEnd : PhasesEnd}
    (hmapped : phasesEnd ≠ .unmapped .none) (hearly : ∀ updated, phasesEnd ≠ .completed updated) :
    All (fun c => c ≠ .infer ∧ c.delivers = false) (report phasesEnd) := by
  apply ((h.only phasesEnd).all.and (h.early phasesEnd hmapped hearly).all).mono
  intro c hc
  rcases hc with ⟨honly, hsuccess⟩
  cases c with
  | getOutputShapes => exact ⟨nofun, rfl⟩
  | notify n =>
      have hstatus : n.status ≠ .none := by
        intro hnone
        simp [ExecutionCmd.success, hnone] at hsuccess
      exact ⟨nofun, decide_eq_false hstatus⟩
  | _ => cases honly

theorem all_outputPhases (scalarDims : Bool) (outputs : List RequestArgument) :
    All (fun c => c ≠ .infer) (outputPhases scalarDims outputs) := by
  have hcopies : ∀ is, All (fun c => c ≠ ExecutionCmd.infer)
      (copyOutputs scalarDims outputs is) := by
    intro is
    induction is with
    | nil => trivial
    | cons i is ih =>
        apply All.bind (all_perform nofun)
        intro copy
        split
        · trivial
        · exact ih
  apply (hcopies _).bind
  intro sufficient
  split
  · trivial
  · exact All.bind (all_perform nofun) fun updated => trivial

/-- The phases of an execution and its report deliver nothing before they have
waited. -/
theorem starting_phases (hmap : MapsPools pm b pools mapPools) (hreport : Reports report)
    (scalarDims : Bool) (inputs outputs : List RequestArgument) :
    Starting ((phases scalarDims mapPools inputs outputs >>= report).expand
      ExecutionCmd.onDevice) := by
  have hearly : ∀ phasesEnd : PhasesEnd, phasesEnd ≠ .unmapped .none →
      (∀ updated, phasesEnd ≠ .completed updated) →
        All (fun c => ∃ c', c = DeviceCmd.execution c' ∧ c'.delivers = false)
          ((report phasesEnd).expand ExecutionCmd.onDevice) :=
    fun phasesEnd hmapped hcompleted => all_onDevice (hreport.undelivering hmapped hcompleted)
  rw [phases, Prog.bind_assoc, Prog.expand_bind]
  apply starting_expand hmap.prepares
  intro status
  split
  · next hfails =>
    have hmapped : PhasesEnd.unmapped status ≠ .unmapped .none := by
      intro h
      injection h with hnone
      exact hfails hnone
    exact Starting.of_undelivering (hearly (.unmapped status) hmapped (by simp))
  · rw [inputPhases, Prog.bind_assoc, Prog.expand_bind]
    refine starting_expand (all_prepares_copyInputs inputs _) fun _ => ?_
    rw [inferPhases, Prog.bind_assoc, Prog.expand_bind, Prog.expand_perform]
    refine starting_infer ?_ ?_
    · -- the inference has thrown
      refine (hearly .notInferred (by simp) (by simp)).mono ?_
      intro c hc
      rcases hc with ⟨c', rfl, hdelivers⟩
      exact ⟨by simp, hdelivers⟩
    · have hrest : All (fun c => c ≠ ExecutionCmd.infer ∧ True)
          (outputPhases scalarDims outputs >>= report) :=
        ((all_outputPhases scalarDims outputs).bind hreport.not_infers).mono fun c hc =>
          ⟨hc, trivial⟩
      refine (all_onDevice hrest).mono ?_
      intro c hc
      rcases hc with ⟨c', rfl, -⟩
      simp

/-- So does every call. -/
theorem starting_program (pm : BasePreparedModel) (b : Behaviour) (call : ExecuteCall) :
    Starting (call.program.expand ExecutionCmd.onDevice) := by
  cases hrefused : call.refused with
  | true =>
      obtain ⟨n, hn, hprogram⟩ := ExecuteCall.program_refused hrefused
      rw [hprogram]
      exact ⟨decide_eq_false hn, fun _ => trivial⟩
  | false =>
      obtain ⟨mapPools, report, hmap, hreport, hprogram⟩ :=
        ExecuteCall.program_phases hrefused pm b
      rw [hprogram]
      exact starting_phases hmap hreport _ _ _

end Starting

/-! ## No early delivery -/

namespace DeviceRuns

variable {K : Type} [DecidableEq K] {x : DeviceRuns K}
  {w : Threads (DeviceState K) DeviceCmd DeviceCmd.Answer K} {k : K}

/-- An execution is before its inference, or waits for it, or has waited and its
inference is completed, or delivers nothing. -/
def Inv (k : K) (w : Threads (DeviceState K) DeviceCmd DeviceCmd.Answer K) : Prop :=
  Starting (w.programs k) ∨ Waiting (w.programs k) ∨
    (Waited (w.programs k) ∧ w.state.inference k = .completed) ∨ Undelivering (w.programs k)

/-- Only its own start ends a completed inference. -/
theorem inference_answer {j : K} {c : DeviceCmd} {t t' : DeviceState K} {r : c.Answer}
    (h : x.answers j c t = .ok (r, t')) (hc : j = k → c ≠ .startAsync) :
    t'.inference k = t.inference k := by
  cases c with
  | startAsync =>
      have hother : k ≠ j := fun hk => hc hk.symm rfl
      simp only [answers, deviceAnswer] at h
      split at h
      · cases h
        exact Function.update_of_ne hother _ _
      · cases h
        rfl
  | wait =>
      simp only [answers, deviceAnswer] at h
      split at h <;> cases h <;> rfl
  | execution c =>
      simp only [answers, deviceAnswer] at h
      split at h
      · cases h
        rfl
      · cases h

theorem complete_completed {pm : BasePreparedModel} {t : DeviceState K} (j : K)
    (h : t.inference k = .completed) : (t.complete pm j).inference k = .completed := by
  unfold DeviceState.complete
  split
  · next hrunning =>
    by_cases hk : k = j
    · subst hk
      exact Function.update_self _ _ _
    · rw [← h]
      exact Function.update_of_ne hk _ _
  · exact h
  · exact h

/-- The next step of an execution on its own. -/
theorem inv_driver_self (h : Inv k w)
    (hwait : w.next k = some .wait → w.state.inference k = .completed) :
    Inv k (w.step x.answers k) := by
  cases hprogram : w.programs k with
  | done a =>
      rw [Threads.step_done hprogram]
      exact h
  | call c f =>
      cases hanswer : x.answers k c w.state with
      | error e =>
          left
          rw [Threads.step_error hprogram hanswer]
          simp only [Function.update_self]
          trivial
      | ok rt =>
          rcases rt with ⟨r, t⟩
          have hrest : (w.step x.answers k).programs k = f r := by
            rw [Threads.step_ok hprogram hanswer]
            exact Function.update_self _ _ _
          have hstate : (w.step x.answers k).state = t := by
            rw [Threads.step_ok hprogram hanswer]
          unfold Inv at h ⊢
          rw [hprogram] at h
          rw [hrest, hstate]
          rcases h with hstarting | ⟨g, hg, hwaited⟩ | ⟨hwaited, hcompleted⟩ | hundelivering
          · cases c with
            | startAsync =>
                rcases hstarting with ⟨hwaits, hthrows⟩
                cases r with
                | true => exact .inr (.inl hwaits)
                | false => exact .inr (.inr (.inr hthrows))
            | wait => cases hstarting
            | execution c => exact .inl (hstarting.2 r)
          · cases hg
            have hcompleted := hwait (by simp [Threads.next, hprogram])
            have hsame := inference_answer (k := k) hanswer (by simp)
            exact .inr (.inr (.inl ⟨hwaited r, hsame.trans hcompleted⟩))
          · have hsame := inference_answer (k := k) hanswer fun _ => hwaited.1
            exact .inr (.inr (.inl ⟨hwaited.2 r, hsame.trans hcompleted⟩))
          · exact .inr (.inr (.inr (hundelivering.2 r)))

omit [DecidableEq K] in
/-- A step of another execution, or a completion, leaves the invariant. -/
theorem inv_of_same (h : Inv k w) {w' : Threads (DeviceState K) DeviceCmd DeviceCmd.Answer K}
    (hprogram : w'.programs k = w.programs k)
    (hinference : w.state.inference k = .completed → w'.state.inference k = .completed) :
    Inv k w' := by
  unfold Inv at h ⊢
  rw [hprogram]
  exact h.imp_right (Or.imp_right (Or.imp_left (And.imp_right hinference)))

theorem inv_driver_other {j : K} (hj : j ≠ k) (h : Inv k w) : Inv k (w.step x.answers j) := by
  apply inv_of_same h (Threads.step_programs_of_ne (Ne.symm hj))
  intro hcompleted
  refine Threads.step_preserves
    (I := fun t : DeviceState K => t.inference k = .completed) ?_ hcompleted
  intro c r t _ hanswer hcompleted
  exact (inference_answer hanswer fun hjk => absurd hjk hj).trans hcompleted

theorem inv_step (h : ∀ k, Inv k w) {e : DeviceEvent K} (he : WaitsCompleted w e) :
    ∀ k, Inv k (x.step w e) := by
  intro k
  cases e with
  | driver j =>
      by_cases hj : j = k
      · subst hj
        exact inv_driver_self (h j) (he j rfl)
      · exact inv_driver_other hj (h k)
  | completion j => exact inv_of_same (h k) rfl (complete_completed j)

omit [DecidableEq K] in
/-- What delivers has waited. -/
theorem inference_of_delivers (h : Inv k w) {c : DeviceCmd} (hc : w.next k = some c)
    (hdelivers : c.delivers = true) : w.state.inference k = .completed := by
  cases hprogram : w.programs k with
  | done a => simp [Threads.next, hprogram] at hc
  | call c' f =>
      obtain rfl : c' = c := by simpa [Threads.next, hprogram] using hc
      unfold Inv at h
      rw [hprogram] at h
      rcases h with hstarting | ⟨g, hg, -⟩ | ⟨-, hcompleted⟩ | hundelivering
      · cases c' with
        | startAsync | wait => cases hdelivers
        | execution c' =>
            have hnot : c'.delivers = false := hstarting.1
            have hdoes : c'.delivers = true := hdelivers
            rw [hnot] at hdoes
            cases hdoes
      · cases hg
        cases hdelivers
      · exact hcompleted
      · rw [hundelivering.1.2] at hdelivers
        cases hdelivers

end DeviceRuns

/-- **No early delivery.**  For any number of executions, on any path, and every
order of their steps and of the completions of their inferences: where every wait
ends with its inference completed, no output blob is read and NONE is not reported
before the execution's inference is completed. -/
theorem deliversCompleted_of_waitsCompleted {K : Type} [DecidableEq K] (x : DeviceRuns K)
    (schedule : List (DeviceEvent K))
    (h : Checked DeviceRuns.WaitsCompleted x.step x.start schedule) :
    Checked DeviceRuns.DeliversCompleted x.step x.start schedule := by
  have hstart : ∀ k, DeviceRuns.Inv k x.start := fun k =>
    .inl (starting_program x.pm (x.behaviour k) (x.call k))
  have hinv := h.with_invariant (I := fun w => ∀ k, DeviceRuns.Inv k w) hstart
    fun w e hw he => DeviceRuns.inv_step hw he
  apply hinv.mono
  intro w e hwe k _ c hc hdelivers
  exact DeviceRuns.inference_of_delivers (hwe.1 k) hc hdelivers

/-- One `executeSynchronously` of the reshape. -/
def reshapeDeviceRun : DeviceRuns Unit where
  pm := reshapePreparedModel
  behaviour _ := .permissive
  call _ := .executeSynchronously true (reshapeRequest 1 2)
  first := reshapeStart

/-- The inference completes before the wait runs out, and the output is read after
it. -/
theorem reshapeDeviceRun_deliversCompleted :
    Checked DeviceRuns.DeliversCompleted reshapeDeviceRun.step reshapeDeviceRun.start
      [.driver (), .driver (), .driver (), .completion (), .driver (), .driver ()] := by
  refine deliversCompleted_of_waitsCompleted _ _ ⟨?_, ?_, ?_, ?_, ?_, ?_, trivial⟩
  · intro k _ hnext
    cases hnext
  · intro k _ hnext
    cases hnext
  · intro k _ hnext
    cases hnext
  · intro k hk
    cases hk
  · intro k _ _
    rfl
  · intro k _ hnext
    cases hnext

/-- When the wait runs out, the next step reads the output blob of an inference that
is still running. -/
theorem reshapeDeviceRun_delivers_early :
    ¬ ∀ (K : Type) (_ : DecidableEq K) (x : DeviceRuns K) (schedule : List (DeviceEvent K)),
      Checked DeviceRuns.DeliversCompleted x.step x.start schedule := by
  intro h
  obtain ⟨-, -, -, -, hread, -⟩ := h Unit inferInstance reshapeDeviceRun
    [.driver (), .driver (), .driver (), .driver (), .driver ()]
  have hcompleted : Inference.running _ = .completed := hread () rfl _ rfl rfl
  cases hcompleted

end NnHal
