import NnHal.PoolMappings
import NnHal.Threads

/-!
# The life of a prepared model

An accepted execution runs in a detached thread, which has a raw pointer to the
prepared model.  It takes shared pointers to what it needs when it starts.  The
prepared model itself is counted by the references of its client alone: with the
last of them it is destroyed, whether the threads have started or not.
-/

namespace NnHal

open Command Runs BasePreparedModel

/-! ## The thread of an execution -/

/-- The calls of a thread: those on the prepared model, and the commands of the
execution, which go through the shared pointers. -/
inductive ThreadCmd
  | getModelInfo
  | getPlugin
  | getNgraphNwCreator
  | execution (c : ExecutionCmd)

abbrev ThreadCmd.Answer : ThreadCmd → Type
  | .getModelInfo | .getPlugin | .getNgraphNwCreator => Unit
  | .execution c => c.Answer

/-- The call follows the raw pointer. -/
def ThreadCmd.usesPreparedModel : ThreadCmd → Bool
  | .getModelInfo | .getPlugin | .getNgraphNwCreator => true
  | .execution _ => false

/-- A command through the shared pointers. -/
def throughPointers (c : ExecutionCmd) : Prog ThreadCmd ThreadCmd.Answer c.Answer :=
  Prog.perform (ThreadCmd.execution c)

/-- The thread that `executeBase` detaches. -/
def executionThread (request : Request HidlMemory) : Prog ThreadCmd ThreadCmd.Answer Unit := do
  Prog.perform ThreadCmd.getModelInfo
  Prog.perform ThreadCmd.getPlugin
  Prog.perform ThreadCmd.getNgraphNwCreator
  (asyncExecute request).expand throughPointers

/-- What the threads share, and the references of the client. -/
structure LifetimeState where
  shared : SharedState
  references : Nat

/-- The prepared model has been destroyed. -/
def LifetimeState.Destroyed (t : LifetimeState) : Prop := t.references = 0

instance (t : LifetimeState) : Decidable t.Destroyed := inferInstanceAs (Decidable (_ = _))

/-- The answers to a thread.  Nothing stops a call on a destroyed prepared
model. -/
def threadAnswer (pm : BasePreparedModel) (b : Behaviour) :
    (c : ThreadCmd) → LifetimeState → Except ExecutionStop (c.Answer × LifetimeState)
  | .getModelInfo, t | .getPlugin, t | .getNgraphNwCreator, t => .ok ((), t)
  | .execution c, t =>
      match executionAnswer pm b c t.shared with
      | .ok (r, shared) => .ok (r, { t with shared })
      | .error e => .error e

/-- The client gives a reference back; with the last one the destructor runs. -/
def LifetimeState.release (t : LifetimeState) : LifetimeState :=
  match t.references with
  | 0 => t
  | 1 => { shared := { t.shared with mappings := t.shared.destroy }, references := 0 }
  | n + 2 => { t with references := n + 1 }

/-- Apart from the pointers it takes, the thread is `asyncExecute`. -/
theorem exec_executionThread (pm : BasePreparedModel) (b : Behaviour)
    (request : Request HidlMemory) (t : LifetimeState) :
    let run := exec (threadAnswer pm b) (executionThread request) t
    run.outcome = (exec (executionAnswer pm b) (asyncExecute request) t.shared).outcome ∧
      run.state.shared =
        (exec (executionAnswer pm b) (asyncExecute request) t.shared).state := by
  refine @exec_expand _ _ _ _ _ (executionAnswer pm b) _ _ _ (threadAnswer pm b) throughPointers
    LifetimeState.shared (fun c t r s h => ?_) (fun c t e h => ?_) (asyncExecute request) t
  · have hanswer : threadAnswer pm b (.execution c) t = .ok (r, { t with shared := s }) := by
      simp only [threadAnswer, h]
    have hrun : exec (threadAnswer pm b) (throughPointers c) t = _ := exec_call_ok hanswer
    rw [hrun]
    exact ⟨rfl, rfl⟩
  · have hanswer : threadAnswer pm b (.execution c) t = .error e := by
      simp only [threadAnswer, h]
    have hrun : exec (threadAnswer pm b) (throughPointers c) t = _ := exec_call_error hanswer
    rw [hrun]
    exact ⟨rfl, rfl⟩

/-! ## A client and its executions -/

/-- Requests that a client may have executed, each with what its execution meets,
and the state before them. -/
structure ClientRuns (K : Type) where
  pm : BasePreparedModel
  behaviour : K → Behaviour
  request : K → Request HidlMemory
  first : LifetimeState

/-- The client has a request executed, or releases a reference; or a thread makes a
step. -/
inductive LifetimeEvent (K : Type)
  | execute (k : K)
  | release
  | thread (k : K)

namespace ClientRuns

variable {K : Type} [DecidableEq K] (x : ClientRuns K)

abbrev World (K : Type) := Threads LifetimeState ThreadCmd ThreadCmd.Answer K

def answers (k : K) :
    (c : ThreadCmd) → LifetimeState → Except ExecutionStop (c.Answer × LifetimeState) :=
  threadAnswer x.pm (x.behaviour k)

def start : World K where
  state := x.first
  programs _ := .done ()

/-- `execute`: the call detaches a thread and returns.  The client needs a
reference to make it. -/
def accept (w : World K) (k : K) : World K :=
  if w.state.Destroyed then w
  else
    match w.programs k with
    | .done _ =>
        { w with programs := Function.update w.programs k (executionThread (x.request k)) }
    | .call _ _ => w

def step (w : World K) : LifetimeEvent K → World K
  | .execute k => x.accept w k
  | .release => { w with state := w.state.release }
  | .thread k => w.step x.answers k

/-- A step of a thread that uses the prepared model finds it alive. -/
def UsesAlive (w : World K) (e : LifetimeEvent K) : Prop :=
  ∀ k, e = .thread k → ∀ c, w.next k = some c → c.usesPreparedModel = true →
    ¬ w.state.Destroyed

/-- What is left of the thread does not use the prepared model: it has its
pointers. -/
abbrev HasPointers : Prog ThreadCmd ThreadCmd.Answer Unit → Prop :=
  All fun c => c.usesPreparedModel = false

/-- The last reference is released when every thread has its pointers. -/
def ReleasesLate (w : World K) (e : LifetimeEvent K) : Prop :=
  e = .release → w.state.references = 1 → ∀ k, HasPointers (w.programs k)

/-- After the destruction no thread uses the prepared model. -/
def Inv (w : World K) : Prop := w.state.Destroyed → ∀ k, HasPointers (w.programs k)

variable {x} {w : World K}

omit [DecidableEq K] in
/-- A thread keeps the references. -/
theorem references_answer {k : K} {c : ThreadCmd} {t t' : LifetimeState} {r : c.Answer}
    (h : x.answers k c t = .ok (r, t')) : t'.references = t.references := by
  cases c with
  | getModelInfo | getPlugin | getNgraphNwCreator =>
      cases h
      rfl
  | execution c =>
      simp only [answers, threadAnswer] at h
      split at h
      · cases h
        rfl
      · cases h

theorem inv_step (h : Inv w) {e : LifetimeEvent K} (he : ReleasesLate w e) :
    Inv (x.step w e) := by
  intro hdestroyed k
  cases e with
  | execute j =>
      -- a client without a reference does not call
      have hkeeps : (x.accept w j).state = w.state := by
        unfold accept
        split
        · rfl
        · split <;> rfl
      have hbefore : w.state.Destroyed := hkeeps ▸ hdestroyed
      have hnone : x.step w (.execute j) = w := if_pos hbefore
      rw [hnone]
      exact h hbefore k
  | release =>
      have hprograms : (x.step w .release).programs = w.programs := rfl
      rw [hprograms]
      match hreferences : w.state.references with
      | 0 => exact h hreferences k
      | 1 => exact he rfl hreferences k
      | n + 2 =>
          have hzero : (w.state.release).references = 0 := hdestroyed
          simp [LifetimeState.release, hreferences] at hzero
  | thread j =>
      have hsame : (w.step x.answers j).state.references = w.state.references := by
        refine Threads.step_preserves
          (I := fun t : LifetimeState => t.references = w.state.references) ?_ rfl
        intro c r t _ hanswer hreferences
        exact references_answer hanswer
      have hbefore : w.state.Destroyed := hsame.symm.trans hdestroyed
      by_cases hk : k = j
      · subst hk
        exact Threads.all_step (h hbefore k)
      · have hprogram : (x.step w (.thread j)).programs k = w.programs k :=
          Threads.step_programs_of_ne hk
        rw [hprogram]
        exact h hbefore k

end ClientRuns

/-- **No use after destruction.**  For any number of executions, and every order of
their acceptance, their threads' steps and the releases of the client: where the
last reference is released when every thread that has been detached has taken its
pointers, no step of a thread uses a prepared model that has been destroyed. -/
theorem usesAlive_of_releasesLate {K : Type} [DecidableEq K] (x : ClientRuns K)
    (schedule : List (LifetimeEvent K))
    (h : Checked ClientRuns.ReleasesLate x.step x.start schedule) :
    Checked ClientRuns.UsesAlive x.step x.start schedule := by
  have hstart : ClientRuns.Inv x.start := fun _ k => trivial
  have hinv := h.with_invariant hstart fun w e hw he => ClientRuns.inv_step hw he
  apply hinv.mono
  intro w e hwe k _ c hc huses hdestroyed
  have hnot : c.usesPreparedModel = false :=
    Threads.next_of_all (P := fun c => c.usesPreparedModel = false) (hwe.1 hdestroyed k) hc
  rw [huses] at hnot
  cases hnot

/-- A client with one reference and one request. -/
def reshapeClient : ClientRuns Unit where
  pm := reshapePreparedModel
  behaviour _ := .permissive
  request _ := reshapeRequest 1 2
  first := { shared := reshapeStart, references := 1 }

/-- The thread takes its pointers before the client lets go. -/
theorem reshapeClient_usesAlive :
    Checked ClientRuns.UsesAlive reshapeClient.step reshapeClient.start
      [.execute (), .thread (), .thread (), .thread (), .release, .thread ()] := by
  refine usesAlive_of_releasesLate _ _ ⟨nofun, nofun, nofun, nofun, ?_, nofun, trivial⟩
  intro _ _ k
  exact All.expand (P := fun _ => True) (Q := fun c => c.usesPreparedModel = false)
    (f := throughPointers) (fun c _ => ⟨rfl, fun _ => trivial⟩) (all_true (asyncExecute _))

/-- The client lets go right after the call: the thread starts on a prepared model
that is gone. -/
theorem reshapeClient_uses_destroyed :
    ¬ ∀ (K : Type) (_ : DecidableEq K) (x : ClientRuns K) (schedule : List (LifetimeEvent K)),
      Checked ClientRuns.UsesAlive x.step x.start schedule := by
  intro h
  obtain ⟨-, -, huses, -⟩ := h Unit inferInstance reshapeClient [.execute (), .release, .thread ()]
  exact huses () rfl _ rfl rfl rfl

end NnHal
