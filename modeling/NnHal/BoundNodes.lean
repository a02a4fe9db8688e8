import NnHal.GraphAccesses

/-!
# Entries that hold no node

`mOutputAtOperandIndex` starts without nodes.  Graph generation binds the model
inputs that are not zero-sized and, one operation after the other, the outputs.
Each class looks its inputs up in its own way, and none of the lookups asks
whether the entry is bound.

A walk over the operations that keeps the set of bound operands tells whether
every lookup finds a node, without building the graph.
-/

namespace NnHal

open Command Runs

/-- Every node the run takes from the table is there: each entry looked up is
bound, each operand whose name is asked for is bound or has its name already, and
no constant comes out as the null pointer. -/
def NodesBound (run : Ran NgraphNodes Cmd Stop Bool) : Prop :=
  ∀ sc ∈ run.trace,
    (∀ i, sc.2 = .getOperationOutput i → sc.1.bound i = true) ∧
      (∀ i, sc.2 = .removeInputNode i → sc.1.bound i = true ∨ sc.1.named i = true) ∧
        ∀ i, sc.2 ≠ .nullConstant i

/-! ## The walk -/

/-- The operands that are bound, and those that have a name. -/
structure BoundTable where
  bound : Nat → Bool
  named : Nat → Bool

namespace BoundTable

/-- What the walk keeps of a node table. -/
def ofNodes (nodes : NgraphNodes) : BoundTable := ⟨nodes.bound, nodes.named⟩

def setBound (t : BoundTable) (i : Nat) (b : Bool) : BoundTable :=
  { t with bound := Function.update t.bound i b }

def setNamed (t : BoundTable) (i : Nat) : BoundTable :=
  { t with named := Function.update t.named i true }

/-- A touch changes the table. -/
def advance (t : BoundTable) : Access → BoundTable
  | .set i b => t.setBound i b
  | .name i | .invalidate i => t.setNamed i
  | _ => t

/-- A touch finds what it looks for. -/
def allows (t : BoundTable) : Access → Prop
  | .output i => t.bound i = true
  | .name i => t.bound i = true ∨ t.named i = true
  | .null _ => False
  | _ => True

/-- A use finds what it looks for: a constant tensor is of a type `getInputNode`
converts, any other operand is bound. -/
def allowsUse (t : BoundTable) (p : OperationsBase × Use) : Prop :=
  match p.2 with
  | .node input _ =>
      if p.1.isInputConst input then
        (p.1.sModelInfo.getOperandType (p.1.inputIndex input)).constElement.isSome = true
      else t.bound (p.1.inputIndex input) = true
  | .rawOutput input => t.bound (p.1.inputIndex input) = true
  | .remove input =>
      t.bound (p.1.inputIndex input) = true ∨ t.named (p.1.inputIndex input) = true
  | _ => True

/-- A use changes the table. -/
def advanceUse (t : BoundTable) (p : OperationsBase × Use) : BoundTable :=
  match p.2 with
  | .set i b => t.setBound i b
  | .remove input => t.setNamed (p.1.inputIndex input)
  | _ => t

/-- The model inputs: those that are not zero-sized are bound, the others have a
name. -/
def inputs (modelInfo : NnapiModelInfo) : BoundTable where
  bound i := i ∈ modelInfo.getModelInputIndexes &&
    !NgraphNetworkCreator.zeroSized (modelInfo.getOperand i)
  named i := i ∈ modelInfo.getModelInputIndexes &&
    NgraphNetworkCreator.zeroSized (modelInfo.getOperand i)

end BoundTable

/-- Every operand is bound before an operation looks it up. -/
def BoundBeforeUse (creator : NgraphNetworkCreator) (statics : Statics) : Prop :=
  Checked BoundTable.allowsUse BoundTable.advanceUse (BoundTable.inputs creator.mModelInfo)
    (creator.reachedUses statics)

/-! ## Touches that neither look up nor bind -/

/-- The reads of constants, and the end. -/
def Access.elsewhere : Access → Bool
  | .read _ | .nullRead _ | .stop => true
  | _ => false

theorem checked_elsewhere {t : BoundTable} {as : List Access}
    (h : ∀ a ∈ as, a.elsewhere = true) :
    Checked BoundTable.allows BoundTable.advance t as ∧ as.foldl BoundTable.advance t = t := by
  induction as with
  | nil => exact ⟨trivial, rfl⟩
  | cons a as ih =>
      obtain ⟨hchecked, hfold⟩ := ih fun b hb => h b (List.mem_cons_of_mem _ hb)
      have ha := h a List.mem_cons_self
      cases a <;> simp only [Access.elsewhere, Bool.false_eq_true] at ha
      all_goals exact ⟨⟨trivial, hchecked⟩, hfold⟩

theorem memoryAccesses_elsewhere (info : NnapiModelInfo) (operand : Nat) :
    ∀ a ∈ info.memoryAccesses operand, a.elsewhere = true := by
  intro a ha
  unfold NnapiModelInfo.memoryAccesses at ha
  rcases List.mem_cons.mp ha with rfl | hrest
  · rfl
  · split at hrest
    · split at hrest <;> simp_all [Access.elsewhere]
    · simp_all [Access.elsewhere]
    · simp at hrest

theorem readAccesses_elsewhere (info : NnapiModelInfo) (operand : Nat) {fits : Prop}
    [Decidable fits] {empty : Bool} :
    ∀ a ∈ info.memoryAccesses operand ++
      (if fits then info.bufferAccesses operand empty else [.stop]), a.elsewhere = true := by
  intro a ha
  rcases List.mem_append.mp ha with hleft | hright
  · exact memoryAccesses_elsewhere info operand a hleft
  · unfold NnapiModelInfo.bufferAccesses at hright
    split at hright
    · split at hright <;> simp_all [Access.elsewhere]
    · simp_all [Access.elsewhere]

theorem dequantizeAccesses_elsewhere (self : OperationsBase) (operand : Nat) :
    ∀ a ∈ self.dequantizeAccesses operand, a.elsewhere = true := by
  intro a ha
  unfold OperationsBase.dequantizeAccesses at ha
  split at ha
  · split at ha
    · split at ha <;> simp_all [Access.elsewhere]
    · simp_all [Access.elsewhere]
  · simp at ha

theorem dequantizedAccesses_elsewhere (self : OperationsBase) (operand : Nat) (b : Bool) :
    ∀ a ∈ (if b then self.dequantizeAccesses operand else []), a.elsewhere = true := by
  intro a ha
  split at ha
  · exact dequantizeAccesses_elsewhere self operand a ha
  · simp at ha

theorem checked_upto_elsewhere {t : BoundTable} {as : List Access}
    (h : ∀ a ∈ as, a.elsewhere = true) :
    Checked BoundTable.allows BoundTable.advance t (upto Access.stops as) :=
  (checked_elsewhere fun a ha => h a (mem_of_mem_upto ha)).1

/-! ## One use -/

/-- The touches of a use find what they look for exactly when the use does. -/
theorem use_checked (t : BoundTable) (p : OperationsBase × Use) :
    Checked BoundTable.allows BoundTable.advance t
        (upto Access.stops (NgraphNetworkCreator.useAccesses p)) ↔
      t.allowsUse p := by
  rcases p with ⟨self, u⟩
  cases u with
  | scalar T input | vector T input =>
      exact iff_of_true (checked_upto_elsewhere (readAccesses_elsewhere _ _)) trivial
  | dequantize operand =>
      exact iff_of_true (checked_upto_elsewhere (dequantizeAccesses_elsewhere _ _)) trivial
  | channelQuant input =>
      refine iff_of_true (checked_upto_elsewhere fun a ha => ?_) trivial
      simp only [NgraphNetworkCreator.useAccesses, OperationsBase.accesses,
        OperationsBase.channelQuantAccesses] at ha
      split at ha <;> simp_all [Access.elsewhere]
  | rawOutput input | remove input | set operand bound =>
      simp [NgraphNetworkCreator.useAccesses, OperationsBase.accesses, upto, Access.stops, Checked,
        BoundTable.allows, BoundTable.allowsUse]
  | node input dequantize =>
      have hrest := dequantizedAccesses_elsewhere self (self.inputIndex input)
        (dequantize && (self.sModelInfo.getOperandType (self.inputIndex input)).isQuantized)
      simp only [NgraphNetworkCreator.useAccesses, OperationsBase.accesses,
        OperationsBase.nodeAccesses, BoundTable.allowsUse, OperationsBase.isInputConst]
      by_cases hconst : self.sModelInfo.isOperandLifeTimeConst (self.inputIndex input) = true
      · simp only [hconst, if_true]
        cases (self.sModelInfo.getOperandType (self.inputIndex input)).constElement with
        | none => simp [upto, Access.stops, Checked, BoundTable.allows]
        | some element =>
            refine iff_of_true (checked_upto_elsewhere fun a ha => ?_) rfl
            rcases List.mem_append.mp ha with hvector | hdequantized
            · exact readAccesses_elsewhere _ _ a hvector
            · exact hrest a hdequantized
      · simp only [hconst, Bool.false_eq_true, if_false, upto, Access.stops, Checked]
        exact and_iff_left (checked_upto_elsewhere hrest)

/-- And they change the table as the use does. -/
theorem use_foldl (t : BoundTable) (p : OperationsBase × Use) :
    (NgraphNetworkCreator.useAccesses p).foldl BoundTable.advance t = t.advanceUse p := by
  rcases p with ⟨self, u⟩
  cases u with
  | scalar T input | vector T input => exact (checked_elsewhere (readAccesses_elsewhere _ _)).2
  | dequantize operand => exact (checked_elsewhere (dequantizeAccesses_elsewhere _ _)).2
  | channelQuant input =>
      simp only [NgraphNetworkCreator.useAccesses, OperationsBase.accesses,
        OperationsBase.channelQuantAccesses]
      split <;> rfl
  | rawOutput input | remove input | set operand bound => rfl
  | node input dequantize =>
      have hrest := dequantizedAccesses_elsewhere self (self.inputIndex input)
        (dequantize && (self.sModelInfo.getOperandType (self.inputIndex input)).isQuantized)
      have hvector : ∀ T, (self.sModelInfo.vectorAccesses T (self.inputIndex input)).foldl
          BoundTable.advance t = t :=
        fun T => (checked_elsewhere (readAccesses_elsewhere _ _)).2
      simp only [NgraphNetworkCreator.useAccesses, OperationsBase.accesses,
        OperationsBase.nodeAccesses]
      split
      · split
        · rfl
        · rw [List.foldl_append, hvector]
          exact (checked_elsewhere hrest).2
      · exact (checked_elsewhere hrest).2

/-! ## The inputs, and the whole run -/

theorem ofNodes_setOutputAtOperandIndex (nodes : NgraphNodes) (i : Nat) (output : Option Output) :
    BoundTable.ofNodes (nodes.setOutputAtOperandIndex i output) =
      (BoundTable.ofNodes nodes).setBound i output.isSome := by
  have hbound : (nodes.setOutputAtOperandIndex i output).bound =
      Function.update nodes.bound i output.isSome := by
    funext j
    by_cases hj : j = i
    · subst hj
      simp [NgraphNodes.bound, NgraphNodes.setOutputAtOperandIndex]
    · simp [NgraphNodes.bound, NgraphNodes.setOutputAtOperandIndex, hj]
  rw [BoundTable.ofNodes, hbound]
  rfl

theorem named_update (nodes : NgraphNodes) (i : Nat) (name : String) :
    (fun j => (Function.update nodes.mNodeNames i (some name) j).isSome) =
      Function.update nodes.named i true := by
  funext j
  by_cases hj : j = i
  · subst hj
    simp
  · simp [NgraphNodes.named, hj]

theorem ofNodes_setInvalidNode (nodes : NgraphNodes) (i : Nat) :
    BoundTable.ofNodes (nodes.setInvalidNode i) = (BoundTable.ofNodes nodes).setNamed i := by
  have hnamed := named_update nodes i ""
  exact congrArg (BoundTable.mk nodes.bound) hnamed

theorem ofNodes_getNodeName (ng : Ngraph) (nodes : NgraphNodes) (i : Nat) :
    BoundTable.ofNodes (nodes.getNodeName ng i).2 = (BoundTable.ofNodes nodes).setNamed i := by
  unfold NgraphNodes.getNodeName
  cases hname : nodes.mNodeNames i with
  | none => exact congrArg (BoundTable.mk nodes.bound) (named_update nodes i _)
  | some name =>
      have hnamed : nodes.named i = true := by simp [NgraphNodes.named, hname]
      simp [BoundTable.ofNodes, BoundTable.setNamed, ← hnamed]

/-- The name of the operand is known, so removing its parameter adds none. -/
theorem ofNodes_removeInputNode (ng : Ngraph) (nodes : NgraphNodes) (i : Nat) :
    BoundTable.ofNodes (nodes.removeInputNode ng i) = (BoundTable.ofNodes nodes).setNamed i := by
  have hname := ofNodes_getNodeName ng nodes i
  unfold NgraphNodes.removeInputNode
  generalize nodes.getNodeName ng i = named at *
  rcases named with ⟨name, nodes'⟩
  have herased : ∀ params, BoundTable.ofNodes { nodes' with mInputParams := params } =
      BoundTable.ofNodes nodes' := fun _ => rfl
  simp only [NgraphNodes.removeInputParameter]
  split
  · exact hname
  · rw [ofNodes_setInvalidNode, herased, hname]
    simp [BoundTable.setNamed]

/-- **Step.**  A command changes the table as its touch does. -/
theorem ofNodes_advance (ng : Ngraph) (c : Cmd) (s : NgraphNodes) (r : c.Answer)
    (s' : NgraphNodes) (h : answer ng c s = .ok (r, s')) :
    BoundTable.ofNodes s' =
      (Cmd.access c).elim (BoundTable.ofNodes s) (BoundTable.advance (BoundTable.ofNodes s)) := by
  cases c with
  | abort | throwException => cases h
  | fault f =>
      obtain ⟨-, rfl⟩ := Prod.mk.inj (Except.ok.inj h)
      cases f <;> rfl
  | setOutputAtOperandIndex i output =>
      obtain ⟨-, rfl⟩ := Prod.mk.inj (Except.ok.inj h)
      exact ofNodes_setOutputAtOperandIndex s i output
  | setInvalidNode i =>
      obtain ⟨-, rfl⟩ := Prod.mk.inj (Except.ok.inj h)
      exact ofNodes_setInvalidNode s i
  | removeInputNode i =>
      obtain ⟨-, rfl⟩ := Prod.mk.inj (Except.ok.inj h)
      exact ofNodes_removeInputNode ng s i
  | make op args =>
      simp only [answer] at h
      split at h
      · obtain ⟨-, rfl⟩ := Prod.mk.inj (Except.ok.inj h)
        rfl
      · cases h
  | _ =>
      obtain ⟨-, rfl⟩ := Prod.mk.inj (Except.ok.inj h)
      rfl

/-- The touches of the inputs bind those that are not zero-sized and name the
others. -/
theorem foldl_inputAccesses (info : NnapiModelInfo) (inputs : List Nat) (t : BoundTable)
    (h : NgraphNetworkCreator.inputsSupported info inputs = true) :
    (NgraphNetworkCreator.inputAccesses info inputs).foldl BoundTable.advance t =
      { bound := fun i => t.bound i ||
          (i ∈ inputs && !NgraphNetworkCreator.zeroSized (info.getOperand i))
        named := fun i => t.named i ||
          (i ∈ inputs && NgraphNetworkCreator.zeroSized (info.getOperand i)) } := by
  induction inputs generalizing t with
  | nil => simp [NgraphNetworkCreator.inputAccesses]
  | cons j inputs ih =>
      obtain ⟨hj, hrest⟩ : (NgraphNetworkCreator.zeroSized (info.getOperand j) = true ∨
          (NgraphNetworkCreator.parameterType (info.getOperand j).type).isSome = true) ∧
          NgraphNetworkCreator.inputsSupported info inputs = true := by
        simpa [NgraphNetworkCreator.inputsSupported] using h
      unfold NgraphNetworkCreator.inputAccesses
      by_cases hzero : NgraphNetworkCreator.zeroSized (info.getOperand j) = true
      · rw [if_pos hzero, List.foldl_cons, ih _ hrest]
        simp only [BoundTable.advance, BoundTable.setNamed, BoundTable.mk.injEq]
        constructor <;> funext i <;> by_cases hi : i = j
        all_goals first | subst hi; simp [hzero] | simp [hi]
      · have htype := hj.resolve_left hzero
        rw [if_neg hzero, if_pos htype, List.foldl_cons, ih _ hrest]
        simp only [BoundTable.advance, BoundTable.setBound, BoundTable.mk.injEq]
        constructor <;> funext i <;> by_cases hi : i = j
        all_goals first | subst hi; simp [hzero] | simp [hi]

theorem checked_inputAccesses (info : NnapiModelInfo) (inputs : List Nat) (t : BoundTable) :
    Checked BoundTable.allows BoundTable.advance t
      (NgraphNetworkCreator.inputAccesses info inputs) := by
  induction inputs generalizing t with
  | nil => trivial
  | cons i inputs ih =>
      unfold NgraphNetworkCreator.inputAccesses
      split
      · exact ⟨trivial, ih _⟩
      · split
        · exact ⟨trivial, ih _⟩
        · trivial

theorem nodesBound_iff {run : Ran NgraphNodes Cmd Stop Bool} :
    NodesBound run ↔
      ∀ sc ∈ run.trace, ∀ u, Cmd.access sc.2 = some u → (BoundTable.ofNodes sc.1).allows u := by
  refine forall₂_congr fun sc _ => ⟨fun ⟨houtput, hname, hnull⟩ u hu => ?_, fun h => ⟨?_, ?_, ?_⟩⟩
  · cases hc : sc.2 with
    | getOperationOutput i =>
        obtain rfl : Access.output i = u := by simpa [hc, Cmd.access] using hu
        exact houtput i hc
    | removeInputNode i =>
        obtain rfl : Access.name i = u := by simpa [hc, Cmd.access] using hu
        exact hname i hc
    | nullConstant i => exact absurd hc (hnull i)
    | fault f =>
        cases f <;> simp only [hc, Cmd.access, Option.some.injEq, reduceCtorEq] at hu
        subst hu
        trivial
    | _ =>
        simp only [hc, Cmd.access, Option.some.injEq, reduceCtorEq] at hu
        all_goals subst hu; trivial
  · intro i hc
    exact h (.output i) (by rw [hc]; rfl)
  · intro i hc
    exact h (.name i) (by rw [hc]; rfl)
  · intro i hc
    exact h (.null i) (by rw [hc]; rfl)

/-- **Bound before use.**  Whatever ngraph does, graph generation takes only
nodes that are there, exactly when the walk over the operations finds every
operand bound before it is looked up. -/
theorem nodesBound_iff_boundBeforeUse (info : NnapiModelInfo) (device : IntelDeviceType) :
    (∀ ng, NodesBound ((NgraphNetworkCreator.construct info device).1.generateRun
        (NgraphNetworkCreator.construct info device).2 ng)) ↔
      BoundBeforeUse (NgraphNetworkCreator.construct info device).1
        (NgraphNetworkCreator.construct info device).2 := by
  refine Iff.trans (forall_congr' fun ng => nodesBound_iff) ?_
  refine (NgraphNetworkCreator.generateRun_checked ofNodes_advance
    (fun t p _ => use_checked t p) fun t p _ _ => use_foldl t p).trans ?_
  refine (and_iff_right (checked_inputAccesses _ _ _)).trans ?_
  by_cases hinputs : NgraphNetworkCreator.inputsSupported info info.getModelInputIndexes = true
  · have htable : (NgraphNetworkCreator.construct info device).1.modelInputAccesses.foldl
        BoundTable.advance (BoundTable.ofNodes {}) = BoundTable.inputs info :=
      (foldl_inputAccesses info _ _ hinputs).trans (by simp [BoundTable.inputs, BoundTable.ofNodes,
        NgraphNodes.bound, NgraphNodes.named])
    exact iff_of_eq (congrArg (fun t => Checked _ _ t _) htable)
  · -- no operation is reached
    have hnone : (NgraphNetworkCreator.construct info device).1.reachedUses
        (NgraphNetworkCreator.construct info device).2 = [] := by
      simp [NgraphNetworkCreator.reachedUses, NgraphNetworkCreator.modelUses,
        NgraphNetworkCreator.construct, hinputs, upto]
    unfold BoundBeforeUse
    rw [hnone]
    exact iff_of_true trivial trivial

/-- A model whose only input is zero-sized, with one operation on it. -/
def zeroSizedModel : Model where
  operands :=
    [{ type := .tensorFloat32, dimensions := [0, 2], lifetime := .subgraphInput },
     { type := .tensorFloat32, dimensions := [0, 2], lifetime := .subgraphOutput }]
  operations := [{ type := .relu, inputs := [0], outputs := [1] }]
  inputIndexes := [0]
  outputIndexes := [1]

/-- The operation is accepted and looks up an entry that nothing binds. -/
theorem relu_takes_unbound_entry :
    ¬ ∀ (info : NnapiModelInfo) (device : IntelDeviceType) (ng : Ngraph),
      info.mModel.WellFormed → info.mModel.InExecutionOrder →
      (NgraphNetworkCreator.construct info device).1.Accepts
        (NgraphNetworkCreator.construct info device).2 ng →
      NodesBound ((NgraphNetworkCreator.construct info device).1.generateRun
        (NgraphNetworkCreator.construct info device).2 ng) := by
  intro h
  have hbound := h ⟨zeroSizedModel, []⟩ .cpu .permissive (by decide) (by decide) rfl
  rw [nodesBound_iff] at hbound
  have hchecked := (exec_checked (ofNodes_advance .permissive) _ _).mp hbound
  have hentry : false = true := hchecked.2.1
  cases hentry

end NnHal
