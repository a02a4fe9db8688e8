import Mathlib.Data.List.Forall2
import NnHal.SequenceRNN

/-!
# The layer in both directions

`BIDIRECTIONAL_SEQUENCE_RNN` runs one layer over the sequence and another one over it
backwards, or over an auxiliary sequence.  Its backward loop counts down over the
parts that the forward loop has squeezed, and stores what it computes by the time.
It binds what two `UNIDIRECTIONAL_SEQUENCE_RNN` bind, the second one on the sequence in
the other order.
-/

namespace NnHal

open Command Tensors

section States

variable {R : Type} [CommRing R] [LinearOrder R]

/-- The states along a list of inputs. -/
def Layer.scan (l : Layer R) : List (Tensor R) → Tensor R → List (Tensor R)
  | [], _ => []
  | x :: xs, h => l.step x h :: l.scan xs (l.step x h)

namespace Layer

variable {l : Layer R} {timeMajor : Bool} {times : Nat} {x y y' h : Tensor R}

theorem scan_states (z : Nat → Tensor R) (h : Tensor R) (n s : Nat) :
    l.scan ((List.range' s n).map z) (l.state z h s) =
      (List.range' s n).map fun t => l.state z h (t + 1) := by
  induction n generalizing s with
  | zero => rfl
  | succ n ih =>
      rw [List.range'_succ, List.map_cons, List.map_cons, scan]
      exact congrArg (l.state z h (s + 1) :: ·) (ih (s + 1))

/-- The moments of a sequence from the last to the first are those of the sequence in
the other order. -/
theorem scan_reverse (hx : x.shape = Tensor.sequenceShape timeMajor times l.batch l.inputSize) :
    l.scan ((List.range times).map (x.atTime timeMajor)).reverse h =
      l.states (x.reverseTime timeMajor times) h timeMajor times := by
  have hmoments : ((List.range times).map (x.atTime timeMajor)).reverse =
      (List.range' 0 times).map ((x.reverseTime timeMajor times).atTime timeMajor) := by
    rw [← List.map_reverse, List.range_eq_range', List.reverse_range', List.map_map,
      List.range_eq_range']
    apply List.map_congr_left
    intro t ht
    have hbefore : t < times := by
      have := List.mem_range'_1.mp ht
      omega
    rw [Tensor.atTime_reverseTime hx hbefore, Function.comp_apply]
    congr 1
    omega
  rw [hmoments, states, List.range_eq_range']
  exact scan_states _ h times 0

/-- There is one tensor that holds the states. -/
theorem Sequence.unique (hy : l.Sequence timeMajor times x h y)
    (hy' : l.Sequence timeMajor times x h y') : y = y' := by
  apply Tensor.ext_moments hy.shape hy'.shape
  intro t ht
  rw [hy.states t ht, hy'.states t ht]

/-- The tensor of the states. -/
def sequence (l : Layer R) (timeMajor : Bool) (times : Nat) (x h : Tensor R) : Tensor R :=
  if timeMajor then Tensor.stack [l.batch, l.units] (l.states x h timeMajor times)
  else (Tensor.stack [l.batch, l.units] (l.states x h timeMajor times)).transpose [1, 0, 2]

theorem sequence_sequence (hh : h.shape = [l.batch, l.units]) :
    l.Sequence timeMajor times x h (l.sequence timeMajor times x h) := sequence_stack hh rfl

/-- The states in the other order, joined. -/
theorem reverse_stack (hh : h.shape = [l.batch, l.units]) (hy : l.Sequence timeMajor times x h y)
    (hy' : y' = if timeMajor then
        Tensor.stack [l.batch, l.units] (l.states x h timeMajor times).reverse
      else (Tensor.stack [l.batch, l.units] (l.states x h timeMajor times).reverse).transpose
        [1, 0, 2]) :
    y' = y.reverseTime timeMajor times := by
  have hall : ∀ z ∈ (l.states x h timeMajor times).reverse, z.shape = [l.batch, l.units] :=
    fun z hz => shape_states hh z (List.mem_reverse.mp hz)
  obtain ⟨hshape, hmoments⟩ := Tensor.moments_stack hall hy'
  have hlength : (l.states x h timeMajor times).reverse.length = times := by
    rw [List.length_reverse, length_states]
  rw [hlength] at hshape
  refine Tensor.ext_moments hshape hy.shape fun t ht => ?_
  rw [hmoments t (hlength.symm ▸ ht), Tensor.atTime_reverseTime hy.shape ht,
    hy.states _ (by omega), List.getElem_reverse]
  simp [states]

end Layer

end States

/-! ## The loops -/

section Loops

variable {R : Type} [CommRing R] {M : Meaning R} {ng : Ngraph} {nodes : NgraphNodes}

theorem Layer.Feeds.reads {l : Layer R} {output : Output} {x : Tensor R}
    (hsize : l.inputSize ≠ 1) (h : l.Feeds ng M output x) : l.Reads ng M output x :=
  ⟨h.shape, h.tensor.squeeze hsize h.shape, h.type⟩

/-- The operand of the output is bound to a node of the tensor. -/
def OperationsBase.Binds (self : OperationsBase) (M : Meaning R) (nodes : NgraphNodes) (index : Nat)
    (x : Tensor R) : Prop :=
  ∃ node, nodes.mOutputAtOperandIndex (self.outputIndex index) = some (node, 0) ∧
    node.denote M 0 = x

/-- The operation binds its outputs to the sequence and its last state. -/
def UnidirectionalSequenceRNN.Delivers (ng : Ngraph) (M : Meaning R) (nodes : NgraphNodes)
    (self : OperationsBase) (y last : Tensor R) : Prop :=
  Leaves (answer ng) nodes (createNode self) fun _ s =>
    self.Binds M s 0 y ∧ (self.outputsSize = 2 → self.Binds M s 1 last)

theorem UnidirectionalSequenceRNN.Inputs.delivers [LinearOrder R] (hM : M.Recurs)
    (hadd : M.AddsBias) (ht : M.Transposes) (hng : ng.ChecksShapes M) (hinfer : ng.Infers M)
    {self : OperationsBase} {l : Layer R} {timeMajor : Bool} {times : Nat} {x h y : Tensor R}
    (hin : UnidirectionalSequenceRNN.Inputs ng M nodes self l timeMajor times x h)
    (hsize : l.inputSize ≠ 1) (hy : l.Sequence timeMajor times x h y) :
    UnidirectionalSequenceRNN.Delivers ng M nodes self y
      (l.state (x.atTime timeMajor) h times) := by
  have hlarge : 1 < l.inputSize := by
    have := l.inputSize_pos
    omega
  apply (leaves_createNode hM hadd ht hng hinfer hlarge hin).mono
  intro _ s hs
  rcases hs.output with ⟨out, hout, hsequence⟩
  exact ⟨⟨out, hout, hsequence.unique hy⟩, hs.finalState⟩

namespace BidirectionalSequenceRNN

/-- What the forward loop leaves of a moment. -/
structure Stepped [LinearOrder R] (ng : Ngraph) (M : Meaning R) (l : Layer R)
    (auxInputSplit : Node) (times : Nat) (x : Nat → Tensor R) (h : Tensor R) (t : Nat)
    (step : Step) : Prop where
  before : t < times
  input : l.Feeds ng M step.input (x t)
  auxInput : step.auxInput = auxInputSplit.output t
  output : step.output.Carries ng M l.elementType (l.state x h (t + 1))

theorem gives_addAux {aux : Aux} (haux : aux ≠ .weighted) {auxInput : Output}
    {dims auxWeights add : Node} :
    Gives (answer ng) nodes (addAux aux auxInput dims auxWeights add) (· = (auxInput, add)) := by
  unfold addAux
  rw [if_neg haux]
  exact gives_pure rfl

variable [LinearOrder R] {l : Layer R} {aux : Aux}

/-- **The forward loop.** -/
theorem gives_forward (hM : M.Recurs) (hadd : M.AddsBias) (ht : M.Transposes)
    (hng : ng.ChecksShapes M) (hsize : l.inputSize ≠ 1) (haux : aux ≠ .weighted)
    {inputSplit auxInputSplit W recurrent bias auxWeights : Node} {activationFn : Int}
    (hl : l.Given ng M W recurrent bias activationFn) {times : Nat} {x h : Tensor R}
    (hsplit : l.Splits ng M inputSplit times x) (hh : h.shape = [l.batch, l.units]) (n s : Nat)
    (hbound : s + n ≤ times) {hidden : Node}
    (hhidden : hidden.Carries ng M l.elementType (l.state (x.atTime true) h s)) :
    Gives (answer ng) nodes
      (forward aux inputSplit auxInputSplit W recurrent bias auxWeights activationFn
        (List.range' s n) hidden)
      (List.Forall₂ (Stepped ng M l auxInputSplit times (x.atTime true) h) (List.range' s n)) := by
  induction n generalizing s hidden with
  | zero => exact gives_pure .nil
  | succ n ih =>
      have hread := hsplit.reads hsize (t := s) (by omega)
      have hstate : (l.state (x.atTime true) h s).shape = [l.batch, l.units] :=
        Layer.shape_state hh s
      rw [List.range'_succ]
      unfold forward
      refine (gives_noAxes hng).bind ?_
      intro _ heq
      subst heq
      apply (gives_squeeze hM ht hng hread).bind
      intro input hinput
      apply (gives_rnnProducts hM hadd hng hinput hl hhidden hstate).bind
      intro p hp
      refine (gives_addAux haux).bind ?_
      intro _ heq
      subst heq
      refine (gives_rnnOutput hadd hng hinput.shape hstate hp hl.activationFn).bind
        fun output hout => ?_
      refine (ih (s + 1) (by omega) hout).bind fun rest hrest => gives_pure ?_
      exact .cons ⟨by omega, hinput, rfl, hout⟩ hrest

/-- What the backward loop squeezes of a step. -/
def curStepInput (aux : Aux) (step : Step) : Output :=
  if aux = .parallel then step.auxInput else step.input

/-- **The backward loop.** -/
theorem gives_backward (hM : M.Recurs) (hadd : M.AddsBias) (ht : M.Transposes)
    (hng : ng.ChecksShapes M) (haux : aux ≠ .weighted) {W recurrent bias auxWeights : Node}
    {activationFn : Int} (hl : l.Given ng M W recurrent bias activationFn) {xs : List (Tensor R)}
    {steps : List Step}
    (hreads : List.Forall₂ (fun x step => l.Reads ng M (curStepInput aux step) x) xs steps)
    {hidden : Node} {h : Tensor R} (hhidden : hidden.Carries ng M l.elementType h)
    (hh : h.shape = [l.batch, l.units]) :
    Gives (answer ng) nodes (backward aux W recurrent bias auxWeights activationFn steps hidden)
      (CarriesAll ng M l.elementType (l.scan xs h)) := by
  induction hreads generalizing hidden h with
  | nil => exact gives_pure .nil
  | @cons x step xs steps hread _ ih =>
      unfold backward
      refine (gives_noAxes hng).bind ?_
      intro _ heq
      subst heq
      apply (gives_squeeze hM ht hng hread).bind
      intro input hinput
      apply (gives_rnnProducts hM hadd hng hinput hl hhidden hh).bind
      intro p hp
      refine (gives_addAux haux).bind ?_
      intro _ heq
      subst heq
      refine (gives_rnnOutput hadd hng hinput.shape hh hp hl.activationFn).bind
        fun output hout => ?_
      exact (ih hout (Layer.shape_step _ _ _)).bind fun rest hrest =>
        gives_pure (.cons hout hrest)

/-! ### Inputs of one unit -/

omit [LinearOrder R] in
/-- ngraph refuses the first forward step. -/
theorem refuses_forward (hM : M.Recurs) (ht : M.Transposes) (hng : ng.ChecksShapes M)
    (hsize : l.inputSize = 1) {inputSplit auxInputSplit W recurrent bias auxWeights hidden : Node}
    {activationFn : Int} (hW : W.Carries ng M l.elementType l.weights) {times : Nat} {x : Tensor R}
    (hsplit : l.Splits ng M inputSplit times x) {t : Nat} (htime : t < times) (rest : List Nat) :
    Returns (answer ng) nodes
      (forward aux inputSplit auxInputSplit W recurrent bias auxWeights activationFn (t :: rest)
        hidden) fun _ => False := by
  unfold forward
  refine (gives_noAxes hng).returns.bind ?_
  intro _ heq
  subst heq
  apply (returns_squeezed hM ht hng).bind
  intro input hinput
  exact (hsplit.refuses hng hsize htime hinput hW).bind fun _ h => h.elim

omit [LinearOrder R] in
/-- ngraph refuses the first backward step. -/
theorem refuses_backward (hM : M.Recurs) (ht : M.Transposes) (hng : ng.ChecksShapes M)
    (hsize : l.inputSize = 1) {auxInputSplit W recurrent bias auxWeights hidden : Node}
    {activationFn : Int} (hW : W.Carries ng M l.elementType l.weights) {times : Nat} {x : Tensor R}
    (hsplit : l.Splits ng M auxInputSplit times x) {t : Nat} (htime : t < times) {step : Step}
    (hstep : step.auxInput = auxInputSplit.output t) (rest : List Step) :
    Returns (answer ng) nodes
      (backward .parallel W recurrent bias auxWeights activationFn (step :: rest) hidden)
      fun _ => False := by
  unfold backward
  refine (gives_noAxes hng).returns.bind ?_
  intro _ heq
  subst heq
  apply (returns_squeezed hM ht hng).bind
  intro input hinput
  rw [if_pos rfl, hstep] at hinput
  exact (hsplit.refuses hng hsize htime hinput hW).bind fun _ h => h.elim

/-! ### Joining the loops -/

omit [CommRing R] [LinearOrder R] in
theorem gives_mapM_deref (outputs : List Node) :
    Gives (answer ng) nodes ((outputs.map some).mapM deref) (· = outputs) := by
  induction outputs with
  | nil => exact gives_pure rfl
  | cons node outputs ih =>
      rw [List.map_cons, List.mapM_cons]
      refine Gives.bind (Q := (· = node)) (gives_pure rfl) ?_
      intro _ heq
      subst heq
      refine ih.bind ?_
      intro _ heq
      subst heq
      exact gives_pure rfl

/-- What follows the loops. -/
def joined (self : OperationsBase) (isTimeMajor mergeOutputs : Bool) (maxTime : Nat) (input : Node)
    (steps : List Step) (outputs : List Node) : Gen Unit := do
  let fwOutputNode ← joinSteps input maxTime (steps.map (·.output))
  let bwOutputs ← (backwardOutputs maxTime outputs).mapM deref
  let bwOutputNode ← joinSteps input maxTime bwOutputs
  let fwOutputNode ← transposeUnless isTimeMajor .btsTbs fwOutputNode
  let bwOutputNode ← transposeUnless isTimeMajor .btsTbs bwOutputNode
  let fwOutputNode ←
    (if mergeOutputs then makeShared (.concat 2) [fwOutputNode, bwOutputNode]
    else pure fwOutputNode)
  setOutputs self mergeOutputs fwOutputNode bwOutputNode (steps.map (·.output)).getLast?
    outputs.getLast?

/-- The operation has the outputs its flag asks for, and no operand is two of them. -/
structure Signature (base : OperationsBase) : Prop where
  outputs : base.outputsSize = firstState base ∨ base.outputsSize = firstState base + 2
  distinct : ∀ i j, i < j → j < base.outputsSize → base.outputIndex i ≠ base.outputIndex j

omit [CommRing R] [LinearOrder R] in
theorem leaves_setStates {self : OperationsBase} (first : Nat) {fwLast bwLast : Node} :
    Leaves (answer ng) nodes
      (if self.outputsSize > 2 then do
          self.setOperationOutput (self.outputIndex first) (some fwLast)
          self.setOperationOutput (self.outputIndex (first + 1)) (some bwLast)
        else pure ())
      fun _ s => s.mOutputAtOperandIndex =
        if self.outputsSize > 2 then
          Function.update
            (Function.update nodes.mOutputAtOperandIndex (self.outputIndex first)
              (some (fwLast, 0)))
            (self.outputIndex (first + 1)) (some (bwLast, 0))
        else nodes.mOutputAtOperandIndex := by
  by_cases hsize : self.outputsSize > 2
  · simp only [if_pos hsize]
    apply (leaves_setOperationOutput _ _).bind
    intro _ s hs
    apply (leaves_setOperationOutput _ _).mono
    intro _ s' hs'
    rw [hs', hs]
    rfl
  · simp only [if_neg hsize]
    exact ⟨(), rfl, rfl⟩

omit [CommRing R] [LinearOrder R] in
theorem leaves_setOutputs {self : OperationsBase} (hsig : Signature self)
    {fwOutputNode bwOutputNode fwLast bwLast : Node} :
    Leaves (answer ng) nodes
      (setOutputs self (mergeOutputs self) fwOutputNode bwOutputNode (some fwLast) (some bwLast))
      fun _ s =>
        s.mOutputAtOperandIndex (self.outputIndex 0) = some (fwOutputNode, 0) ∧
        (mergeOutputs self = false →
          s.mOutputAtOperandIndex (self.outputIndex 1) = some (bwOutputNode, 0)) ∧
        (firstState self < self.outputsSize →
          s.mOutputAtOperandIndex (self.outputIndex (firstState self)) = some (fwLast, 0) ∧
          s.mOutputAtOperandIndex (self.outputIndex (firstState self + 1)) =
            some (bwLast, 0)) := by
  have hdistinct := hsig.distinct
  have houtputs := hsig.outputs
  unfold setOutputs
  apply (leaves_setOperationOutput _ _).bind
  intro _ s hs
  cases hmerge : mergeOutputs self with
  | true =>
      have hfirst : firstState self = 1 := by simp [firstState, hmerge]
      rw [hfirst] at houtputs ⊢
      rw [if_pos rfl]
      refine (gives_pure (Q := fun _ => True) trivial).bind_leaves fun _ _ => ?_
      apply (leaves_setStates 1).mono
      intro _ s' hs'
      rw [hs', hs]
      by_cases hsize : self.outputsSize > 2
      · have h01 := hdistinct 0 1 (by omega) (by omega)
        have h02 := hdistinct 0 2 (by omega) (by omega)
        have h12 := hdistinct 1 2 (by omega) (by omega)
        simp [hsize, h01, h02, h12]
      · have hone : ¬ 1 < self.outputsSize := by omega
        simp [hsize, hone]
  | false =>
      have hfirst : firstState self = 2 := by simp [firstState, hmerge]
      rw [hfirst] at houtputs ⊢
      rw [if_neg (by decide)]
      have h01 := hdistinct 0 1 (by omega) (by omega)
      apply (leaves_setOperationOutput _ _).bind
      intro _ s' hs'
      apply (leaves_setStates 2).mono
      intro _ s'' hs''
      rw [hs'', hs', hs]
      by_cases hsize : self.outputsSize > 2
      · have h02 := hdistinct 0 2 (by omega) (by omega)
        have h03 := hdistinct 0 3 (by omega) (by omega)
        have h12 := hdistinct 1 2 (by omega) (by omega)
        have h13 := hdistinct 1 3 (by omega) (by omega)
        have h23 := hdistinct 2 3 (by omega) (by omega)
        simp [hsize, h01, h02, h03, h12, h13, h23]
      · simp [hsize, h01]

/-- What the outputs are bound to: both directions, merged or apart, and the last
states where there are more outputs. -/
structure BindsBoth (M : Meaning R) (base : OperationsBase) (forward backward forwardState
    backwardState : Tensor R) (nodes : NgraphNodes) : Prop where
  merged : mergeOutputs base = true →
    base.Binds M nodes 0 (Tensor.concat 2 [forward, backward])
  apart : mergeOutputs base = false →
    base.Binds M nodes 0 forward ∧ base.Binds M nodes 1 backward
  states : firstState base < base.outputsSize →
    base.Binds M nodes (firstState base) forwardState ∧
      base.Binds M nodes (firstState base + 1) backwardState

variable {fw bw : Layer R} {timeMajor : Bool} {times : Nat} {x y hf hb f b : Tensor R}

/-- What the two loops leave is joined to the two sequences. -/
theorem leaves_joined (hM : M.Recurs) (ht : M.Transposes) (hng : ng.ChecksShapes M)
    (hinfer : ng.Infers M) {self : OperationsBase} (hsig : Signature self)
    (hbatch : bw.batch = fw.batch) (htype : bw.elementType = fw.elementType) (hpos : 0 < times)
    (hhf : hf.shape = [fw.batch, fw.units]) (hhb : hb.shape = [bw.batch, bw.units])
    (hf' : fw.Sequence timeMajor times x hf f) (hb' : bw.Sequence timeMajor times y hb b)
    {input : Node} (hrank : (input.denote M 0).shape.length = 3) {steps : List Step}
    {outputs : List Node}
    (hsteps : CarriesAll ng M fw.elementType (fw.states x hf timeMajor times)
      (steps.map (·.output)))
    (houtputs : CarriesAll ng M bw.elementType (bw.states y hb timeMajor times) outputs) :
    Leaves (answer ng) nodes
      (joined self timeMajor (mergeOutputs self) times input steps outputs) fun _ =>
      BindsBoth M self f (b.reverseTime timeMajor times) (fw.state (x.atTime timeMajor) hf times)
        (bw.state (y.atTime timeMajor) hb times) := by
  have hlength : outputs.length = times := by
    rw [← houtputs.length_eq, Layer.length_states]
  have hpointers : backwardOutputs times outputs = outputs.reverse.map some := by
    rw [backwardOutputs, hlength, Nat.sub_self]
    rfl
  obtain ⟨fwLast, hfwLast, hfwState⟩ := hsteps.getLast? (Layer.getLast_states hpos)
  obtain ⟨bwLast, hbwLast, hbwState⟩ := houtputs.getLast? (Layer.getLast_states hpos)
  unfold joined
  refine (gives_joinSteps hM ht hng hinfer hrank hsteps (Layer.shape_states hhf)
    Layer.length_states hpos).bind_leaves fun fwJoined hfwJoined => ?_
  rw [hpointers]
  refine (gives_mapM_deref _).bind_leaves ?_
  intro _ heq
  subst heq
  refine (gives_joinSteps hM ht hng hinfer hrank (List.rel_reverse houtputs)
    (fun z hz => Layer.shape_states hhb z (List.mem_reverse.mp hz))
    (by rw [List.length_reverse, Layer.length_states]) hpos).bind_leaves
    fun bwJoined hbwJoined => ?_
  apply (gives_transposeTime ht hng hfwJoined rfl).bind_leaves
  intro fwOut hfwOut
  apply (gives_transposeTime ht hng hbwJoined rfl).bind_leaves
  intro bwOut hbwOut
  have hforward : fwOut.denote M 0 = f := (Layer.sequence_stack hhf hfwOut.tensor).unique hf'
  have hreverse : bwOut.denote M 0 = b.reverseTime timeMajor times :=
    Layer.reverse_stack hhb hb' hbwOut.tensor
  have hmerge : Gives (answer ng) nodes
      (if mergeOutputs self then makeShared (.concat 2) [(fwOut, 0), (bwOut, 0)] else pure fwOut)
      fun node => node.denote M 0 = if mergeOutputs self then
        Tensor.concat 2 [f, b.reverseTime timeMajor times] else f := by
    have hjoin : Joinable 2 [f.shape, (b.reverseTime timeMajor times).shape] := by
      rw [Tensor.shape_reverseTime, hf'.shape, hb'.shape, hbatch]
      refine ⟨if timeMajor then [times, fw.batch] else [fw.batch, times], [], ?_, ?_⟩
      · cases timeMajor <;> rfl
      · intro s hs
        rcases List.mem_pair.mp hs with rfl | rfl
        · exact ⟨fw.units, by cases timeMajor <;> rfl⟩
        · exact ⟨bw.units, by cases timeMajor <;> rfl⟩
    refine gives_ite (fun hflag => ?_) fun hflag => ?_
    · have hsame : ∀ o ∈ [(fwOut, 0), (bwOut, 0)], Output.type ng o = fw.elementType := by
        intro o ho
        rcases List.mem_pair.mp ho with rfl | rfl
        · exact hfwOut.type
        · exact hbwOut.type.trans htype
      refine gives_make (hng.concat 2 _ (List.cons_ne_nil _ _) ?_
        fun o ho o' ho' => (hsame o ho).trans (hsame o' ho').symm) ?_
      · rw [List.map_cons, List.map_cons, List.map_nil, Output.tensor, Output.tensor, hforward,
          hreverse]
        exact hjoin
      · rw [Node.denote_mk_two, if_pos hflag, ← hforward, ← hreverse]
        refine hM.concat 2 _ (List.cons_ne_nil _ _) ?_
        rw [List.map_cons, List.map_cons, List.map_nil, hforward, hreverse]
        exact hjoin
    · rw [if_neg hflag]
      exact gives_pure hforward
  apply hmerge.bind_leaves
  intro out hout
  rw [hfwLast, hbwLast]
  apply (leaves_setOutputs hsig).mono
  intro _ s hs
  rcases hs with ⟨hfirst, hsecond, hstates⟩
  refine ⟨fun hflag => ⟨out, hfirst, ?_⟩, fun hflag => ⟨⟨out, hfirst, ?_⟩, ?_⟩, fun hmore => ?_⟩
  · rw [hout, if_pos hflag]
  · rw [hout, hflag, if_neg Bool.false_ne_true]
  · exact ⟨bwOut, hsecond hflag, hreverse⟩
  · obtain ⟨hforwardState, hbackwardState⟩ := hstates hmore
    exact ⟨⟨fwLast, hforwardState, hfwState.tensor⟩, ⟨bwLast, hbackwardState, hbwState.tensor⟩⟩

/-! ### The operation -/

theorem states_of_stepped {auxInputSplit : Node} {z : Nat → Tensor R} {ts : List Nat}
    {steps : List Step} (h : List.Forall₂ (Stepped ng M fw auxInputSplit times z hf) ts steps) :
    CarriesAll ng M fw.elementType (ts.map fun t => fw.state z hf (t + 1))
      (steps.map (·.output)) := by
  rw [CarriesAll, List.forall₂_map_left_iff, List.forall₂_map_right_iff]
  exact h.imp fun _ _ hstep => hstep.output

/-- The steps read backwards. -/
theorem reads_of_stepped {auxInputSplit : Node} {z z' : Nat → Tensor R} {steps : List Step}
    (h : List.Forall₂ (Stepped ng M fw auxInputSplit times z hf) (List.range times) steps)
    (hreads : ∀ t step, Stepped ng M fw auxInputSplit times z hf t step →
      bw.Reads ng M (curStepInput aux step) (z' t)) :
    List.Forall₂ (fun x step => bw.Reads ng M (curStepInput aux step) x)
      ((List.range times).map z').reverse steps.reverse := by
  refine List.rel_reverse ?_
  rw [List.forall₂_map_left_iff]
  exact h.imp hreads

/-- The command is a wrong step: it is a fault, or it asks the null node of an operand
without a name for one. -/
def IsFault (nodes : NgraphNodes) : Cmd → Prop
  | .fault _ => True
  | .removeInputNode index => nodes.bound index = false ∧ nodes.named index = false
  | _ => False

instance (nodes : NgraphNodes) : DecidablePred (IsFault nodes)
  | .fault _ => .isTrue trivial
  | .removeInputNode _ => inferInstanceAs (Decidable (_ ∧ _))
  | .abort | .throwException | .readOperand _ | .nullConstant _ | .getOperationOutput _
  | .setOutputAtOperandIndex _ _ | .setResultNode _ _ | .addInputParam _ | .setInvalidNode _
  | .make _ _ | .getShape _ | .getElementType _ => .isFalse id

/-- The run gives a graph: it returns, without a wrong step. -/
def WellFormed (run : Ran NgraphNodes Cmd Stop Unit) : Prop :=
  run.outcome = .ok () ∧ ∀ sc ∈ run.trace, ¬ IsFault sc.1 sc.2

omit [CommRing R] [LinearOrder R] in
/-- Without a backward loop a null pointer is joined. -/
theorem faults_joined {self : OperationsBase} {mergeOutputs : Bool} (hpos : 0 < times)
    {input : Node} {steps : List Step} {Q : Unit → NgraphNodes → Prop} :
    Cleanly (answer ng) IsFault nodes
      (joined self timeMajor mergeOutputs times input steps []) Q := by
  have hnull : Cleanly (answer ng) IsFault nodes ((backwardOutputs times []).mapM deref)
      fun _ _ => False := by
    obtain ⟨n, rfl⟩ := Nat.exists_eq_add_one_of_ne_zero hpos.ne'
    have hfirst : backwardOutputs (n + 1) [] = none :: List.replicate n none := by
      simp [backwardOutputs, List.replicate_succ]
    rw [hfirst, List.mapM_cons]
    refine Cleanly.bind (Q := fun _ _ => False) ?_ fun _ _ h => h.elim
    exact Cleanly.bind (Q := fun _ _ => False) (cleanly_bad trivial) fun _ _ h => h.elim
  unfold joined
  refine ((reading_joinSteps _ _ _).returns ng nodes).bind_cleanly fun _ _ => ?_
  exact hnull.bind fun _ _ h => h.elim

/-- The inputs of the operation are two layers, a sequence for each, and their states. -/
structure Inputs (ng : Ngraph) (M : Meaning R) (nodes : NgraphNodes) (base : OperationsBase)
    (fw bw : Layer R) (timeMajor : Bool) (times : Nat) (x y hf hb : Tensor R) : Prop where
  input : base.Supplies ng M nodes fw.elementType 0 x
  fwWeights : base.Supplies ng M nodes fw.elementType 1 fw.weights
  fwRecurrentWeights : base.Supplies ng M nodes fw.elementType 2 fw.recurrentWeights
  fwBias : base.Supplies ng M nodes fw.elementType 3 fw.bias
  fwHiddenState : base.Supplies ng M nodes fw.elementType 4 hf
  bwWeights : base.Supplies ng M nodes bw.elementType 5 bw.weights
  bwRecurrentWeights : base.Supplies ng M nodes bw.elementType 6 bw.recurrentWeights
  bwBias : base.Supplies ng M nodes bw.elementType 7 bw.bias
  bwHiddenState : base.Supplies ng M nodes bw.elementType 8 hb
  /-- the backward layer reads the auxiliary input where there is one -/
  aux : auxInputs base = .absent ∧ y = x ∨
    auxInputs base = .parallel ∧ base.Supplies ng M nodes bw.elementType 9 y
  fwActivation : toInt32 (base.sModelInfo.scalarValue .uint32 (base.inputIndex 12)) =
    fw.activationFn
  bwActivation : toInt32 (base.sModelInfo.scalarValue .uint32 (base.inputIndex 12)) =
    bw.activationFn
  layout : timeMajor = isTimeMajor base
  dimensions : base.getInputOperandDimensions 0 = x.shape
  batch : bw.batch = fw.batch
  elementType : bw.elementType = fw.elementType
  shape_input : x.shape = Tensor.sequenceShape timeMajor times fw.batch fw.inputSize
  shape_aux : y.shape = Tensor.sequenceShape timeMajor times bw.batch bw.inputSize
  shape_fwHidden : hf.shape = [fw.batch, fw.units]
  shape_bwHidden : hb.shape = [bw.batch, bw.units]

omit [LinearOrder R] in
theorem Inputs.inputSize_eq {self : OperationsBase}
    (hin : Inputs ng M nodes self fw bw timeMajor times x x hf hb) :
    bw.inputSize = fw.inputSize := by
  have hsame := hin.shape_input.symm.trans hin.shape_aux
  have hlast := congrArg (fun s => s.getD 2 0) hsame
  cases timeMajor
  · exact hlast.symm
  · exact hlast.symm

omit [LinearOrder R] in
/-- Without an auxiliary input, the backward loop reads what the forward loop has
squeezed. -/
theorem Inputs.reads_input {self : OperationsBase}
    (hin : Inputs ng M nodes self fw bw timeMajor times x x hf hb)
    (habsent : auxInputs self = .absent) {step : Step} {z : Tensor R}
    (hread : fw.Reads ng M step.input z) :
    bw.Reads ng M (curStepInput (auxInputs self) step) z := by
  have hcurrent : curStepInput (auxInputs self) step = step.input := by
    rw [curStepInput, if_neg (by rw [habsent]; decide)]
  rw [hcurrent]
  refine ⟨?_, ?_, ?_⟩
  · rw [hin.batch, hin.inputSize_eq]
    exact hread.shape
  · rw [hin.batch, hin.inputSize_eq]
    exact hread.squeezed
  · rw [hin.elementType]
    exact hread.type

/-- The backward loop begins with a step of the forward one. -/
theorem last_of_stepped {auxInputSplit : Node} {z : Nat → Tensor R} {steps : List Step}
    (hpos : 0 < times)
    (h : List.Forall₂ (Stepped ng M fw auxInputSplit times z hf) (List.range times) steps) :
    ∃ step rest t, steps.reverse = step :: rest ∧
      Stepped ng M fw auxInputSplit times z hf t step := by
  obtain ⟨n, rfl⟩ := Nat.exists_eq_add_one_of_ne_zero hpos.ne'
  have hreverse := List.rel_reverse h
  rw [List.range_succ, List.reverse_concat] at hreverse
  generalize steps.reverse = reversed at hreverse
  cases hreverse with
  | cons hstep _ => exact ⟨_, _, _, rfl, hstep⟩

/-- **The two loops.** -/
theorem cleanly_loops (hM : M.Recurs) (hadd : M.AddsBias) (ht : M.Transposes)
    (hng : ng.ChecksShapes M) (hinfer : ng.Infers M) {self : OperationsBase} (hsig : Signature self)
    {start : NgraphNodes} (hin : Inputs ng M start self fw bw timeMajor times x y hf hb)
    (hpos : 0 < times) (hforward : fw.Sequence timeMajor times x hf f)
    (hbackward : bw.Sequence timeMajor times (y.reverseTime timeMajor times) hb b)
    {input inputSplit auxInputSplit W recurrent bias auxWeights hidden W' recurrent' bias'
      auxWeights' hidden' : Node} {code : Int} (hfw : fw.Given ng M W recurrent bias code)
    (hbw : bw.Given ng M W' recurrent' bias' code) (hhidden : hidden.Carries ng M fw.elementType hf)
    (hhidden' : hidden'.Carries ng M bw.elementType hb) {z : Tensor R}
    (hinput : input.Carries ng M fw.elementType z)
    (hmoments : z.atTime true = x.atTime timeMajor)
    (hsplit : fw.Splits ng M inputSplit times z)
    (haux : auxInputs self = .parallel → ∃ z', bw.Splits ng M auxInputSplit times z' ∧
      z'.atTime true = y.atTime timeMajor) :
    Cleanly (answer ng) IsFault nodes (do
        let steps ← forward (auxInputs self) inputSplit auxInputSplit W recurrent bias auxWeights
          code (List.range times) hidden
        let outputs ← backward (auxInputs self) W' recurrent' bias' auxWeights' code
          (backwardSteps times steps) hidden'
        joined self timeMajor (mergeOutputs self) times input steps outputs) fun _ s =>
      (fw.inputSize ≠ 1 ∧ bw.inputSize ≠ 1) ∧ BindsBoth M self f (b.reverseTime timeMajor times)
        (fw.state (x.atTime timeMajor) hf times)
        (bw.state ((y.reverseTime timeMajor times).atTime timeMajor) hb times) s := by
  have hweighted : auxInputs self ≠ .weighted := by
    rcases hin.aux with ⟨heq, -⟩ | ⟨heq, -⟩ <;> rw [heq] <;> decide
  by_cases hsize : fw.inputSize = 1
  · obtain ⟨n, rfl⟩ := Nat.exists_eq_add_one_of_ne_zero hpos.ne'
    rw [List.range_succ_eq_map]
    refine Returns.bind_cleanly (Q := fun _ => False) ?_ fun _ h => h.elim
    exact refuses_forward hM ht hng hsize hfw.weights hsplit hpos _
  rw [List.range_eq_range']
  refine (gives_forward hM hadd ht hng hsize hweighted hfw hsplit hin.shape_fwHidden times 0
    (by omega) hhidden).returns.bind_cleanly fun steps hsteps => ?_
  rw [hmoments, ← List.range_eq_range'] at hsteps
  have hstates : CarriesAll ng M fw.elementType (fw.states x hf timeMajor times)
      (steps.map (·.output)) := states_of_stepped hsteps
  by_cases hfits : times ≤ 2 ^ 31
  swap
  · rw [backwardSteps, if_neg hfits]
    refine (gives_pure rfl : Gives _ _ _ (· = [])).returns.bind_cleanly ?_
    intro _ heq
    subst heq
    exact faults_joined hpos
  rw [backwardSteps, if_pos hfits]
  have hrank : (input.denote M 0).shape.length = 3 := by rw [hinput.tensor, hsplit.shape]; rfl
  have hrest : bw.inputSize ≠ 1 →
      (∀ t step, Stepped ng M fw auxInputSplit times (x.atTime timeMajor) hf t step →
      bw.Reads ng M (curStepInput (auxInputs self) step) (y.atTime timeMajor t)) →
      Cleanly (answer ng) IsFault nodes (do
        let outputs ← backward (auxInputs self) W' recurrent' bias' auxWeights' code steps.reverse
          hidden'
        joined self timeMajor (mergeOutputs self) times input steps outputs) fun _ s =>
      (fw.inputSize ≠ 1 ∧ bw.inputSize ≠ 1) ∧ BindsBoth M self f (b.reverseTime timeMajor times)
        (fw.state (x.atTime timeMajor) hf times)
        (bw.state ((y.reverseTime timeMajor times).atTime timeMajor) hb times) s := by
    intro hsize' hreads
    refine (gives_backward hM hadd ht hng hweighted hbw (reads_of_stepped hsteps hreads)
      hhidden' hin.shape_bwHidden).returns.bind_cleanly fun outputs houtputs => ?_
    rw [Layer.scan_reverse hin.shape_aux] at houtputs
    refine Ends.cleanly (Leaves.ends ?_)
    refine (leaves_joined hM ht hng hinfer hsig hin.batch hin.elementType hpos hin.shape_fwHidden
      hin.shape_bwHidden hforward hbackward hrank hstates houtputs).mono fun _ s hs => ?_
    exact ⟨⟨hsize, hsize'⟩, hs⟩
  rcases hin.aux with ⟨habsent, rfl⟩ | ⟨hparallel, -⟩
  · have hsize' : bw.inputSize ≠ 1 := hin.inputSize_eq ▸ hsize
    exact hrest hsize' fun t step hstep => hin.reads_input habsent (hstep.input.reads hsize)
  · obtain ⟨z', hsplit', hmoments'⟩ := haux hparallel
    by_cases hsize' : bw.inputSize = 1
    · obtain ⟨step, rest, t, hsteps', hstep⟩ := last_of_stepped hpos hsteps
      rw [hsteps', hparallel]
      refine Returns.bind_cleanly (Q := fun _ => False) ?_ fun _ h => h.elim
      exact refuses_backward hM ht hng hsize' hbw.weights hsplit' hstep.before hstep.auxInput rest
    · apply hrest hsize'
      intro t step hstep
      have hcurrent : curStepInput (auxInputs self) step = auxInputSplit.output t := by
        rw [curStepInput, if_pos hparallel, hstep.auxInput]
      rw [hcurrent, ← hmoments']
      exact hsplit'.reads hsize' hstep.before

omit [LinearOrder R] in
/-- The auxiliary input with time first, where there is one. -/
theorem Inputs.returns_auxInput {self : OperationsBase}
    (hin : Inputs ng M nodes self fw bw timeMajor times x y hf hb) :
    Returns (answer ng) nodes (self.getInputNode 9) fun node =>
      auxInputs self = .parallel → node.Carries ng M bw.elementType y := by
  rcases hin.aux with ⟨habsent, -⟩ | ⟨-, haux⟩
  · apply ((reading_getInputNode 9 true).returns ng nodes).mono
    intro node _ hparallel
    rw [habsent] at hparallel
    cases hparallel
  · exact haux.gives.returns.mono fun node hnode _ => hnode

omit [LinearOrder R] in
theorem Inputs.returns_timeFirst (ht : M.Transposes) (hng : ng.ChecksShapes M)
    {self : OperationsBase} {start : NgraphNodes}
    (hin : Inputs ng M start self fw bw timeMajor times x y hf hb) {auxInput : Node}
    (haux : auxInputs self = .parallel → auxInput.Carries ng M bw.elementType y) :
    Returns (answer ng) nodes
      (transposeUnless (timeMajor || auxInputs self = .absent) .btsTbs auxInput) fun node =>
      auxInputs self = .parallel → ∃ z, node.Carries ng M bw.elementType z ∧
        z.shape = [times, bw.batch, bw.inputSize] ∧ z.atTime true = y.atTime timeMajor := by
  rcases hin.aux with ⟨habsent, -⟩ | ⟨hparallel, -⟩
  · apply ((reading_transposeUnless _ _ _).returns ng nodes).mono
    intro node _ hparallel
    rw [habsent] at hparallel
    cases hparallel
  · have hlayout : (timeMajor || decide (auxInputs self = .absent)) = timeMajor := by
      rw [hparallel]
      exact Bool.or_false timeMajor
    rw [hlayout]
    exact (gives_timeFirst ht hng (haux hparallel) hin.shape_aux).returns.mono fun node h _ => h

/-- **The operation.**  Where it gives a graph, the outputs are the two sequences. -/
theorem cleanly_createNode (hM : M.Recurs) (hadd : M.AddsBias) (ht : M.Transposes)
    (hng : ng.ChecksShapes M) (hinfer : ng.Infers M) {self : OperationsBase} (hsig : Signature self)
    (hin : Inputs ng M nodes self fw bw timeMajor times x y hf hb)
    (hpos : 0 < times) (hforward : fw.Sequence timeMajor times x hf f)
    (hbackward : bw.Sequence timeMajor times (y.reverseTime timeMajor times) hb b) :
    Cleanly (answer ng) IsFault nodes (createNode self) fun _ s =>
      (fw.inputSize ≠ 1 ∧ bw.inputSize ≠ 1) ∧ BindsBoth M self f (b.reverseTime timeMajor times)
        (fw.state (x.atTime timeMajor) hf times)
        (bw.state ((y.reverseTime timeMajor times).atTime timeMajor) hb times) s := by
  have hlayout := hin.layout
  subst hlayout
  unfold createNode
  refine hin.input.gives.returns.bind_cleanly fun input hinput => ?_
  refine hin.fwWeights.gives.returns.bind_cleanly fun W hW => ?_
  refine hin.fwRecurrentWeights.gives.returns.bind_cleanly fun recurrent hR => ?_
  refine hin.fwBias.gives.returns.bind_cleanly fun bias hbias => ?_
  refine hin.fwHiddenState.gives.returns.bind_cleanly fun hidden hhidden => ?_
  refine hin.bwWeights.gives.returns.bind_cleanly fun W' hW' => ?_
  refine hin.bwRecurrentWeights.gives.returns.bind_cleanly fun recurrent' hR' => ?_
  refine hin.bwBias.gives.returns.bind_cleanly fun bias' hbias' => ?_
  refine hin.bwHiddenState.gives.returns.bind_cleanly fun hidden' hhidden' => ?_
  refine hin.returns_auxInput.bind_cleanly fun auxInput haux => ?_
  refine ((reading_getInputNode 10 true).returns ng nodes).bind_cleanly fun auxWeights _ => ?_
  refine ((reading_getInputNode 11 true).returns ng nodes).bind_cleanly fun auxWeights' _ => ?_
  refine Ends.bind_cleanly (Q := fun _ _ => True) (fun _ _ => trivial) fun _ s _ => ?_
  refine returns_parse.bind_cleanly ?_
  intro _ heq
  subst heq
  refine returns_parse.bind_cleanly fun flag hflag => ?_
  have htime : isTimeMajor self = decide (flag ≠ 0) := by rw [hflag]; rfl
  refine returns_parse.bind_cleanly fun merge hmerge => ?_
  have hmerged : mergeOutputs self = decide (merge ≠ 0) := by rw [hmerge]; rfl
  rw [← htime, ← hmerged]
  refine (gives_maxTime (hin.dimensions.trans hin.shape_input)).returns.bind_cleanly
    fun maxTime hmaxTime => ?_
  rw [hmaxTime]
  refine (gives_timeFirst ht hng hinput hin.shape_input).returns.bind_cleanly fun first hfirst => ?_
  rcases hfirst with ⟨z, hcarries, hshape, hmoments⟩
  refine (hin.returns_timeFirst ht hng haux).bind_cleanly fun auxFirst haux' => ?_
  have haxis : Gives (answer ng) s (createConstNode .i32 [] [.int 0]) (· = timeAxis) :=
    gives_const hng rfl rfl
  refine haxis.returns.bind_cleanly ?_
  intro _ heq
  subst heq
  refine (gives_split hM hng hpos hcarries hshape).returns.bind_cleanly fun inputSplit hsplit => ?_
  have hauxSplit : Returns (answer ng) s
      (if auxInputs self = .absent then pure inputSplit
        else makeShared (.split times) [(auxFirst, 0), (timeAxis, 0)]) fun node =>
      auxInputs self = .parallel → ∃ z', bw.Splits ng M node times z' ∧
        z'.atTime true = y.atTime (isTimeMajor self) := by
    refine returns_ite (fun habsent => ?_) fun _ => ?_
    · rw [habsent]
      exact returns_pure fun h => nomatch h
    · by_cases hparallel : auxInputs self = .parallel
      · obtain ⟨z', hcarries', hshape', hmoments'⟩ := haux' hparallel
        exact (gives_split hM hng hpos hcarries' hshape').returns.mono fun _ h _ =>
          ⟨z', h, hmoments'⟩
      · exact ((reading_makeShared _ _).returns ng s).mono fun _ _ h => absurd h hparallel
  refine hauxSplit.bind_cleanly fun auxInputSplit hsplit' => ?_
  exact cleanly_loops hM hadd ht hng hinfer hsig hin hpos hforward hbackward
    ⟨hW, hR, hbias, hin.fwActivation⟩ ⟨hW', hR', hbias', hin.bwActivation⟩ hhidden hhidden'
    hcarries hmoments hsplit hsplit'

/-- **`BIDIRECTIONAL_SEQUENCE_RNN`.**  Where the operation gives a graph, the forward
output and its last state are those of `UNIDIRECTIONAL_SEQUENCE_RNN` with the forward
parameters, and the backward output is that of `UNIDIRECTIONAL_SEQUENCE_RNN` with the
backward parameters on the sequence in the other order, put in order again; its last
state is the one at time 0. -/
theorem both_directions (hM : M.Recurs) (hadd : M.AddsBias) (ht : M.Transposes)
    (hng : ng.ChecksShapes M) (hinfer : ng.Infers M) {self fwOp bwOp : OperationsBase}
    {fwNodes bwNodes : NgraphNodes} (hsig : Signature self)
    (hin : Inputs ng M nodes self fw bw timeMajor times x y hf hb)
    (hfw : UnidirectionalSequenceRNN.Inputs ng M fwNodes fwOp fw timeMajor times x hf)
    (hbw : UnidirectionalSequenceRNN.Inputs ng M bwNodes bwOp bw timeMajor times
      (y.reverseTime timeMajor times) hb)
    (hgraph : WellFormed (exec (answer ng) (createNode self) nodes)) :
    ∃ f fState b bState,
      UnidirectionalSequenceRNN.Delivers ng M fwNodes fwOp f fState ∧
      UnidirectionalSequenceRNN.Delivers ng M bwNodes bwOp b bState ∧
      fState = f.atTime timeMajor (times - 1) ∧
      bState = (b.reverseTime timeMajor times).atTime timeMajor 0 ∧
      BindsBoth M self f (b.reverseTime timeMajor times) fState bState
        (exec (answer ng) (createNode self) nodes).state := by
  have hforward : fw.Sequence timeMajor times x hf (fw.sequence timeMajor times x hf) :=
    fw.sequence_sequence hin.shape_fwHidden
  have hbackward : bw.Sequence timeMajor times (y.reverseTime timeMajor times) hb
      (bw.sequence timeMajor times (y.reverseTime timeMajor times) hb) :=
    bw.sequence_sequence hin.shape_bwHidden
  rcases hgraph with ⟨hreturned, hclean⟩
  obtain ⟨⟨hfwSize, hbwSize⟩, hbinds⟩ := cleanly_createNode hM hadd ht hng hinfer hsig hin
    hfw.times_pos hforward hbackward () hreturned hclean
  have hpos := hfw.times_pos
  have hlast : times - 1 < times := by omega
  refine ⟨_, _, _, _, hfw.delivers hM hadd ht hng hinfer hfwSize hforward,
    hbw.delivers hM hadd ht hng hinfer hbwSize hbackward, ?_, ?_, hbinds⟩
  · rw [hforward.states _ hlast, Nat.sub_add_cancel hpos]
  · rw [Tensor.atTime_reverseTime hbackward.shape hpos, Nat.sub_zero, hbackward.states _ hlast,
      Nat.sub_add_cancel hpos]

end BidirectionalSequenceRNN

end Loops

/-! ### Two moments in both directions -/

/-- A sequence of two moments, two layers of one unit, and an auxiliary sequence without
weights. -/
def bothShapes : List (List Nat) :=
  [[2, 1, 2], [1, 2], [1, 1], [1], [1, 1], [1, 2], [1, 1], [1], [1, 1], [2, 1, 2], [0], [0]]

/-- Their tensors, and the auxiliary sequence in the other order. -/
def bothTensors (operand : Nat) : Tensor Int :=
  if operand = 12 then (sampleInputs bothShapes 9).reverseTime true 2
  else sampleInputs bothShapes operand

abbrev bothMeaning : Meaning Int := unrolledReference bothTensors

abbrev bothNgraph : Ngraph := .fitting bothMeaning

def bothOperation : OperationsBase :=
  sampleSequence .bidirectionalSequenceRnn bothShapes [(.int32, 1), (.bool, 1), (.bool, 0)] 4

/-- The forward and the backward layer. -/
def bothLayer (weights : Nat) (hweights : (bothTensors weights).shape = [1, 2])
    (hrecurrent : (bothTensors (weights + 1)).shape = [1, 1])
    (hbias : (bothTensors (weights + 2)).shape = [1]) : Layer Int where
  batch := 1
  inputSize := 2
  units := 1
  weights := bothTensors weights
  recurrentWeights := bothTensors (weights + 1)
  bias := bothTensors (weights + 2)
  elementType := .f32
  activationFn := 1
  isFloat := ElementType.isFloat_f32
  batch_pos := Nat.one_pos
  inputSize_pos := Nat.two_pos
  units_pos := Nat.one_pos
  shape_weights := hweights
  shape_recurrentWeights := hrecurrent
  shape_bias := hbias

/-- Each of them in an operation of its own. -/
def oneDirection : OperationsBase :=
  sampleSequence .unidirectionalSequenceRnn (bothShapes.take 5) [(.int32, 1), (.int32, 1)] 2

/-- The inputs of the backward one. -/
def backwardNodes : NgraphNodes where
  mOutputAtOperandIndex index :=
    [(12, [2, 1, 2]), (5, [1, 2]), (6, [1, 1]), (7, [1]), (8, [1, 1])][index]?.map
      fun parameter => (.mk (.parameter parameter.1 .f32 parameter.2) [], 0)

theorem bothOperation_inputs :
    BidirectionalSequenceRNN.Inputs bothNgraph bothMeaning (sampleNodes bothShapes) bothOperation
      (bothLayer 1 rfl rfl rfl) (bothLayer 5 rfl rfl rfl) true 2 (bothTensors 0) (bothTensors 9)
      (bothTensors 4) (bothTensors 8) where
  input := ⟨.mk (.parameter 0 .f32 [2, 1, 2]) [], rfl, rfl, rfl⟩
  fwWeights := ⟨.mk (.parameter 1 .f32 [1, 2]) [], rfl, rfl, rfl⟩
  fwRecurrentWeights := ⟨.mk (.parameter 2 .f32 [1, 1]) [], rfl, rfl, rfl⟩
  fwBias := ⟨.mk (.parameter 3 .f32 [1]) [], rfl, rfl, rfl⟩
  fwHiddenState := ⟨.mk (.parameter 4 .f32 [1, 1]) [], rfl, rfl, rfl⟩
  bwWeights := ⟨.mk (.parameter 5 .f32 [1, 2]) [], rfl, rfl, rfl⟩
  bwRecurrentWeights := ⟨.mk (.parameter 6 .f32 [1, 1]) [], rfl, rfl, rfl⟩
  bwBias := ⟨.mk (.parameter 7 .f32 [1]) [], rfl, rfl, rfl⟩
  bwHiddenState := ⟨.mk (.parameter 8 .f32 [1, 1]) [], rfl, rfl, rfl⟩
  aux := .inr ⟨rfl, .mk (.parameter 9 .f32 [2, 1, 2]) [], rfl, rfl, rfl⟩
  fwActivation := rfl
  bwActivation := rfl
  layout := rfl
  dimensions := rfl
  batch := rfl
  elementType := rfl
  shape_input := rfl
  shape_aux := rfl
  shape_fwHidden := rfl
  shape_bwHidden := rfl

theorem oneDirection_distinct :
    oneDirection.outputsSize = 2 → oneDirection.outputIndex 0 ≠ oneDirection.outputIndex 1 := by
  decide

theorem forward_inputs :
    UnidirectionalSequenceRNN.Inputs bothNgraph bothMeaning (sampleNodes (bothShapes.take 5))
      oneDirection (bothLayer 1 rfl rfl rfl) true 2 (bothTensors 0) (bothTensors 4) where
  input := ⟨.mk (.parameter 0 .f32 [2, 1, 2]) [], rfl, rfl, rfl⟩
  weights := ⟨.mk (.parameter 1 .f32 [1, 2]) [], rfl, rfl, rfl⟩
  recurrentWeights := ⟨.mk (.parameter 2 .f32 [1, 1]) [], rfl, rfl, rfl⟩
  bias := ⟨.mk (.parameter 3 .f32 [1]) [], rfl, rfl, rfl⟩
  hidden := ⟨.mk (.parameter 4 .f32 [1, 1]) [], rfl, rfl, rfl⟩
  activationFn := ⟨1, rfl, rfl⟩
  layout := ⟨1, rfl, rfl⟩
  dimensions := rfl
  shape_input := rfl
  shape_hidden := rfl
  times_pos := Nat.two_pos
  distinct := oneDirection_distinct

theorem backward_inputs :
    UnidirectionalSequenceRNN.Inputs bothNgraph bothMeaning backwardNodes oneDirection
      (bothLayer 5 rfl rfl rfl) true 2 ((bothTensors 9).reverseTime true 2) (bothTensors 8) where
  input := ⟨.mk (.parameter 12 .f32 [2, 1, 2]) [], rfl, rfl, rfl⟩
  weights := ⟨.mk (.parameter 5 .f32 [1, 2]) [], rfl, rfl, rfl⟩
  recurrentWeights := ⟨.mk (.parameter 6 .f32 [1, 1]) [], rfl, rfl, rfl⟩
  bias := ⟨.mk (.parameter 7 .f32 [1]) [], rfl, rfl, rfl⟩
  hidden := ⟨.mk (.parameter 8 .f32 [1, 1]) [], rfl, rfl, rfl⟩
  activationFn := ⟨1, rfl, rfl⟩
  layout := ⟨1, rfl, rfl⟩
  dimensions := rfl
  shape_input := rfl
  shape_hidden := rfl
  times_pos := Nat.two_pos
  distinct := oneDirection_distinct

theorem bothOperation_signature : BidirectionalSequenceRNN.Signature bothOperation where
  outputs := .inr rfl
  distinct := by
    have hdistinct : ∀ j < 4, ∀ i < j,
        bothOperation.outputIndex i ≠ bothOperation.outputIndex j := by
      decide
    intro i j hij hj
    exact hdistinct j hj i hij

theorem bothOperation_wellFormed :
    BidirectionalSequenceRNN.WellFormed (exec (answer bothNgraph)
      (BidirectionalSequenceRNN.createNode bothOperation) (sampleNodes bothShapes)) :=
  ⟨rfl, by decide +kernel⟩

/-- The sample in both directions. -/
theorem bothOperation_directions :
    ∃ f fState b bState,
      UnidirectionalSequenceRNN.Delivers bothNgraph bothMeaning (sampleNodes (bothShapes.take 5))
        oneDirection f fState ∧
      UnidirectionalSequenceRNN.Delivers bothNgraph bothMeaning backwardNodes oneDirection b
        bState ∧
      fState = f.atTime true (2 - 1) ∧ bState = (b.reverseTime true 2).atTime true 0 ∧
      BidirectionalSequenceRNN.BindsBoth bothMeaning bothOperation f (b.reverseTime true 2) fState
        bState (exec (answer bothNgraph) (BidirectionalSequenceRNN.createNode bothOperation)
          (sampleNodes bothShapes)).state :=
  BidirectionalSequenceRNN.both_directions unrolledReference_recurs unrolledReference_addsBias
    unrolledReference_transposes (Ngraph.fitting_checksShapes _) (Ngraph.fitting_infers _)
    bothOperation_signature bothOperation_inputs forward_inputs backward_inputs
    bothOperation_wellFormed

end NnHal
