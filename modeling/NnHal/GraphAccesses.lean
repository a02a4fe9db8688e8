import NnHal.NgraphNetworkCreator

/-!
# What graph generation touches

The touches of a whole graph generation are those of the model inputs,
followed by those of the operations in their order.  The list depends on the
model alone: not on ngraph, and not on the node table.

A run issues the list up to the first point where the program stops itself,
or less where ngraph refuses a node.  So a property of the touches holds in
every run exactly when it holds of the list up to that point.
-/

namespace NnHal

open Command Runs

/-- The touch after which nothing follows. -/
def Access.stops : Access → Bool
  | .stop => true
  | _ => false

theorem answer_refuses (ng : Ngraph) (c : Cmd) (u : Access) (hc : c.access = some u)
    (hu : u.stops = true) (nodes : NgraphNodes) : ∃ e, answer ng c nodes = .error e := by
  cases c with
  | abort => exact ⟨.aborted, rfl⟩
  | throwException => exact ⟨.exception, rfl⟩
  | fault f =>
      cases f <;> simp only [Cmd.access, Option.some.injEq, reduceCtorEq] at hc
      subst hc
      cases hu
  | _ =>
      simp only [Cmd.access, Option.some.injEq, reduceCtorEq] at hc
      all_goals subst hc; cases hu

theorem answer_permissive (c : Cmd) (hc : ∀ u, c.access = some u → u.stops = false)
    (nodes : NgraphNodes) : ∃ rs, answer .permissive c nodes = .ok rs := by
  cases c with
  | abort | throwException => simpa [Access.stops] using hc .stop rfl
  | _ => exact ⟨_, rfl⟩

namespace NgraphNetworkCreator

/-! ## The list -/

/-- The model inputs: a name for a zero-sized one, a node for any other, until
one has a type without a parameter. -/
def inputAccesses (modelInfo : NnapiModelInfo) : List Nat → List Access
  | [] => []
  | i :: inputs =>
      if zeroSized (modelInfo.getOperand i) then .invalidate i :: inputAccesses modelInfo inputs
      else if (parameterType (modelInfo.getOperand i).type).isSome then
        .set i true :: inputAccesses modelInfo inputs
      else []

/-- Every model input is zero-sized or has a type with a parameter. -/
def inputsSupported (modelInfo : NnapiModelInfo) (inputs : List Nat) : Bool :=
  inputs.all fun i =>
    zeroSized (modelInfo.getOperand i) || (parameterType (modelInfo.getOperand i).type).isSome

/-- The touches of one use of an operation. -/
def useAccesses (p : OperationsBase × Use) : List Access := p.1.accesses p.2

/-- The uses of the operations in their order, each with the operation as its
methods see it, up to an operation without a class. -/
def nodesUses (statics : Statics) : List (Option OperationNode) → List (OperationsBase × Use)
  | [] => []
  | none :: _ => []
  | some node :: nodes =>
      (node.cls.uses (node.base statics)).map (node.base statics, ·) ++ nodesUses statics nodes

/-- The uses of a graph generation, which ends before the operations when a
model input is not supported. -/
def modelUses (creator : NgraphNetworkCreator) (statics : Statics) : List (OperationsBase × Use) :=
  if inputsSupported creator.mModelInfo creator.mModelInfo.getModelInputIndexes then
    nodesUses statics creator.mOperationNodes
  else []

/-- The touches of the inputs of the creator's model. -/
def modelInputAccesses (creator : NgraphNetworkCreator) : List Access :=
  inputAccesses creator.mModelInfo creator.mModelInfo.getModelInputIndexes

def modelAccesses (creator : NgraphNetworkCreator) (statics : Statics) : List Access :=
  creator.modelInputAccesses ++ (creator.modelUses statics).flatMap useAccesses

/-- Every operation reads the model of the statics. -/
theorem nodesUses_sModelInfo {statics : Statics} {nodes : List (Option OperationNode)}
    {p : OperationsBase × Use} (hp : p ∈ nodesUses statics nodes) :
    p.1.sModelInfo = statics.sModelInfo := by
  induction nodes with
  | nil => cases hp
  | cons node nodes ih =>
      cases node with
      | none => cases hp
      | some node =>
          rcases List.mem_append.mp hp with hnode | hrest
          · obtain ⟨u, -, rfl⟩ := List.mem_map.mp hnode
            rfl
          · exact ih hrest

theorem modelUses_sModelInfo {creator : NgraphNetworkCreator} {statics : Statics}
    {p : OperationsBase × Use} (hp : p ∈ creator.modelUses statics) :
    p.1.sModelInfo = statics.sModelInfo := by
  unfold modelUses at hp
  split at hp
  · exact nodesUses_sModelInfo hp
  · cases hp

/-- The uses up to the first one that stops the program. -/
def reachedUses (creator : NgraphNetworkCreator) (statics : Statics) :
    List (OperationsBase × Use) :=
  upto (fun p => (useAccesses p).any Access.stops) (creator.modelUses statics)

theorem modelInputAccesses_stops (creator : NgraphNetworkCreator) :
    creator.modelInputAccesses.any Access.stops = false := by
  unfold modelInputAccesses
  induction creator.mModelInfo.getModelInputIndexes with
  | nil => rfl
  | cons i inputs ih =>
      unfold inputAccesses
      split
      · simpa [Access.stops] using ih
      · split
        · simpa [Access.stops] using ih
        · rfl

/-! ## The program follows it -/

theorem follows_createInputParams (modelInfo : NnapiModelInfo) (inputs : List Nat) :
    Follows Cmd.access (createInputParams modelInfo inputs) (inputAccesses modelInfo inputs) := by
  induction inputs with
  | nil => exact quiet_pure true
  | cons i inputs ih =>
      unfold createInputParams inputAccesses
      by_cases hzero : zeroSized (modelInfo.getOperand i) = true
      · rw [if_pos hzero, if_pos hzero]
        exact follows_perform_bind rfl fun _ => ih
      · rw [if_neg hzero, if_neg hzero]
        cases parameterType (modelInfo.getOperand i).type with
        | none => exact quiet_pure false
        | some type =>
            apply quiet_make.bind
            intro inputParam
            apply Quiet.bind (quiet_perform rfl)
            intro _
            exact follows_perform_bind rfl fun _ => ih

theorem yields_createInputParams (modelInfo : NnapiModelInfo) (inputs : List Nat) :
    Yields (fun created => created = inputsSupported modelInfo inputs)
      (createInputParams modelInfo inputs) := by
  induction inputs with
  | nil => rfl
  | cons i inputs ih =>
      unfold createInputParams
      by_cases hzero : zeroSized (modelInfo.getOperand i) = true
      · rw [if_pos hzero]
        refine (yields_true _).bind fun _ _ => ?_
        simpa [inputsSupported, hzero] using ih
      · rw [if_neg hzero]
        cases htype : parameterType (modelInfo.getOperand i).type with
        | none => simp [inputsSupported, hzero, htype, Yields]
        | some type =>
            refine (yields_true _).bind fun _ _ => (yields_true _).bind fun _ _ => ?_
            refine (yields_true _).bind fun _ _ => ?_
            simpa [inputsSupported, hzero, htype] using ih

theorem follows_connectNodes (statics : Statics) (nodes : List (Option OperationNode)) :
    Follows Cmd.access (connectNodes statics nodes)
      ((nodesUses statics nodes).flatMap useAccesses) := by
  induction nodes with
  | nil => exact quiet_pure true
  | cons node nodes ih =>
      cases node with
      | none => exact quiet_pure false
      | some node =>
          have hnode : Follows Cmd.access (node.connectOperationToGraph statics)
              ((node.cls.uses (node.base statics)).flatMap (node.base statics).accesses) :=
            node.cls.follows _
          unfold nodesUses
          rw [List.flatMap_append, List.flatMap_map]
          exact hnode.bind fun _ => ih

theorem follows_initializeModel (creator : NgraphNetworkCreator) (statics : Statics) :
    Follows Cmd.access (creator.initializeModel statics) (creator.modelAccesses statics) := by
  refine (follows_createInputParams _ _).bind_yields (yields_createInputParams _ _) ?_
  intro created heq
  subst heq
  unfold modelUses
  split
  · exact follows_connectNodes _ _
  · exact quiet_pure false

/-! ## Every run -/

variable {creator : NgraphNetworkCreator} {statics : Statics}

/-- The touches up to the point where the program stops itself. -/
def reachedAccesses (creator : NgraphNetworkCreator) (statics : Statics) : List Access :=
  creator.modelInputAccesses ++
    upto Access.stops ((creator.modelUses statics).flatMap useAccesses)

theorem upto_modelAccesses :
    upto Access.stops (creator.modelAccesses statics) = creator.reachedAccesses statics := by
  unfold modelAccesses reachedAccesses
  rw [upto_append, if_neg (by simp [modelInputAccesses_stops])]

theorem generateRun_initial (ng : Ngraph) :
    (creator.generateRun statics ng).selected Cmd.access <+: creator.reachedAccesses statics := by
  rw [← upto_modelAccesses]
  exact (follows_initializeModel creator statics).trace_upto (answer_refuses ng) _

theorem generateRun_permissive :
    (creator.generateRun statics .permissive).selected Cmd.access =
      creator.reachedAccesses statics := by
  rw [← upto_modelAccesses]
  exact (follows_initializeModel creator statics).trace_eq_upto (answer_refuses _)
    answer_permissive _

/-- Every touch of every run meets an allowed node table exactly when the touches
of the inputs and then those of the uses do, where the touches alone change what
the check looks at. -/
theorem generateRun_checked {V : Type} {view : NgraphNodes → V} {allowed : V → Access → Prop}
    {advance : V → Access → V} {allowedUse : V → OperationsBase × Use → Prop}
    {advanceUse : V → OperationsBase × Use → V}
    (hview : ∀ ng c s r s', answer ng c s = .ok (r, s') →
      view s' = (Cmd.access c).elim (view s) (advance (view s)))
    (hallowed : ∀ v, ∀ p ∈ creator.modelUses statics,
      Checked allowed advance v (upto Access.stops (useAccesses p)) ↔ allowedUse v p)
    (hadvance : ∀ v, ∀ p ∈ creator.modelUses statics, (useAccesses p).any Access.stops = false →
      (useAccesses p).foldl advance v = advanceUse v p) :
    (∀ ng, ∀ sc ∈ (creator.generateRun statics ng).trace, ∀ u, Cmd.access sc.2 = some u →
        allowed (view sc.1) u) ↔
      Checked allowed advance (view creator.mNgraphNodes) creator.modelInputAccesses ∧
        Checked allowedUse advanceUse
          (creator.modelInputAccesses.foldl advance (view creator.mNgraphNodes))
          (creator.reachedUses statics) := by
  have hrun : ∀ ng, (∀ sc ∈ (creator.generateRun statics ng).trace, ∀ u,
      Cmd.access sc.2 = some u → allowed (view sc.1) u) ↔
      Checked allowed advance (view creator.mNgraphNodes)
        ((creator.generateRun statics ng).selected Cmd.access) :=
    fun ng => exec_checked (hview ng) _ _
  have hlist : Checked allowed advance (view creator.mNgraphNodes)
      (creator.reachedAccesses statics) ↔ _ ∧ _ :=
    checked_append.trans (and_congr_right' (checked_upto_flatMap _ hallowed hadvance _))
  refine Iff.trans ⟨fun h => ?_, fun h ng => ?_⟩ hlist
  · have hpermissive := (hrun .permissive).mp (h .permissive)
    rwa [generateRun_permissive] at hpermissive
  · exact (hrun ng).mpr (h.initial (generateRun_initial ng))

/-- The same for a property of the touches that no state enters. -/
theorem generateRun_all {P : Access → Prop} {Q : OperationsBase × Use → Prop}
    (hinput : ∀ u ∈ creator.modelInputAccesses, P u)
    (huse : ∀ p ∈ creator.modelUses statics,
      (∀ u ∈ upto Access.stops (useAccesses p), P u) ↔ Q p) :
    (∀ ng, ∀ sc ∈ (creator.generateRun statics ng).trace, ∀ u, Cmd.access sc.2 = some u → P u) ↔
      ∀ p ∈ creator.reachedUses statics, Q p := by
  have hchecked := @generateRun_checked creator statics Unit (fun _ => ()) (fun _ u => P u)
    (fun _ _ => ()) (fun _ p => Q p) (fun _ _ => ()) (fun _ _ _ _ _ _ => rfl)
    (fun _ p hp => checked_iff_forall.trans (huse p hp)) fun _ _ _ _ => rfl
  refine hchecked.trans ?_
  rw [checked_iff_forall, checked_iff_forall]
  exact and_iff_right hinput

end NgraphNetworkCreator

end NnHal
