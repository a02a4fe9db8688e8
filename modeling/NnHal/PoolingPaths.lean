import NnHal.ConvolutionMeanings
import NnHal.NnapiConvolutions
import NnHal.PlainSteps

/-!
# What the pooling classes pass on

The three classes decode one parameter list.  They do so alike where the padding is explicit
or the scheme is one that NNAPI documents; for any other scheme `L2Pooling2D` leaves the
paddings unassigned, and the other two take it for the second one.
-/

namespace NnHal

open Command

/-! ## Values that no class decides -/

section Fixed

variable {ι α β : Type}

/-- The programs of a family return one value, whatever is answered, and `Q` holds of it. -/
def Fixed (Q : α → Prop) (p : ι → Gen α) : Prop := ∃ a, Q a ∧ ∀ i, Yields (· = a) (p i)

variable {Q : β → Prop}

theorem fixed_pure {b : β} (h : Q b) : Fixed Q fun _ : ι => (pure b : Gen β) :=
  ⟨b, h, fun _ => rfl⟩

theorem fixed_bind {p : ι → Gen α} {f : ι → α → Gen β} {a : α} (hp : ∀ i, Yields (· = a) (p i))
    (hf : Fixed Q fun i => f i a) : Fixed Q fun i => p i >>= f i := by
  rcases hf with ⟨b, hQ, hb⟩
  refine ⟨b, hQ, fun i => (hp i).bind ?_⟩
  intro _ heq
  subst heq
  exact hb i

/-- A step whose value is not used. -/
theorem fixed_step {p : ι → Gen α} {f : ι → Gen β} (hf : Fixed Q f) :
    Fixed Q fun i => p i >>= fun _ => f i := by
  rcases hf with ⟨b, hQ, hb⟩
  exact ⟨b, hQ, fun i => (yields_true _).bind fun _ _ => hb i⟩

end Fixed

section Values

theorem yields_parseInt32 {self : OperationsBase} {index : Nat} :
    Yields (· = self.int32Input index) (self.parseInt32 index) := by
  apply (NnapiModelInfo.yields_getConstOperand _ _).bind
  intro v hv
  rw [hv]
  exact toInt32_scalarValue

theorem fixed_useNchw (ι : Type) (self : OperationsBase) (inputsSize index : Nat) :
    Fixed (fun _ => True) fun _ : ι => self.useNchw inputsSize index := by
  unfold OperationsBase.useNchw
  by_cases hsize : self.inputsSize = inputsSize
  · simp only [if_pos hsize]
    exact fixed_bind (fun _ => NnapiModelInfo.yields_getConstOperand _ _) (fixed_pure trivial)
  · simp only [if_neg hsize]
    exact fixed_pure trivial

theorem fixed_convInputSizes (ι : Type) (self : OperationsBase) (useNchw : Bool) :
    Fixed (fun _ => True) fun _ : ι => self.convInputSizes false useNchw :=
  fixed_bind (fun _ => yields_dimAt _ _)
    (fixed_bind (fun _ => yields_dimAt _ _) (fixed_pure trivial))

theorem fixed_calculateExplicitPadding (ι : Type) (inSize stride filterSize : Int) :
    Fixed (fun _ => True) fun _ : ι => calculateExplicitPadding inSize stride filterSize 1 := by
  refine fixed_bind (a := (inSize + stride - 1).tdiv stride) (fun _ => ?_) ?_
  · exact (yields_true _).bind fun _ _ => rfl
  · dsimp only
    split
    · exact fixed_pure trivial
    · exact fixed_pure trivial

end Values

/-! ## The local variables -/

/-- The variables that the pooling node is made from are assigned, and so is the activation. -/
structure PoolLocals.Assigned (l : PoolLocals) : Prop where
  attrs : ∃ attrs, OperationsBase.poolAttrs l = pure attrs
  activation : ∃ activation, l.activationFn = some activation

section Locals

variable {self : OperationsBase}

theorem fixed_poolExplicitLocals :
    Fixed PoolLocals.Assigned fun cls : PoolClass => self.poolExplicitLocals cls := by
  refine fixed_bind (fun _ => yields_parseInt32) (fixed_bind (fun _ => yields_parseInt32) ?_)
  refine fixed_bind (fun _ => yields_parseInt32) (fixed_bind (fun _ => yields_parseInt32) ?_)
  refine fixed_bind (fun _ => yields_parseInt32) (fixed_bind (fun _ => yields_parseInt32) ?_)
  refine fixed_bind (fun _ => yields_parseInt32) (fixed_bind (fun _ => yields_parseInt32) ?_)
  obtain ⟨useNchw, -, hnchw⟩ := fixed_useNchw PoolClass self 11 10
  refine fixed_bind (fun _ => yields_parseInt32) (fixed_bind hnchw (fixed_step ?_))
  exact fixed_pure ⟨⟨_, rfl⟩, ⟨_, rfl⟩⟩

/-- With one of the two schemes the classes agree. -/
theorem fixed_poolImplicitLocals (hscheme : self.int32Input 1 = 1 ∨ self.int32Input 1 = 2) :
    Fixed PoolLocals.Assigned fun cls : PoolClass => self.poolImplicitLocals cls := by
  refine fixed_bind (fun _ => yields_parseInt32) (fixed_bind (fun _ => yields_parseInt32) ?_)
  refine fixed_bind (fun _ => yields_parseInt32) (fixed_bind (fun _ => yields_parseInt32) ?_)
  refine fixed_bind (fun _ => yields_parseInt32) (fixed_bind (fun _ => yields_parseInt32) ?_)
  obtain ⟨useNchw, -, hnchw⟩ := fixed_useNchw PoolClass self 8 7
  refine fixed_bind hnchw ?_
  obtain ⟨⟨width, height, channel⟩, -, hsizes⟩ :=
    fixed_convInputSizes PoolClass self useNchw
  refine fixed_bind hsizes ?_
  have hpadding : Fixed (fun padding => ∃ pads, padding.1 = some pads) fun cls : PoolClass =>
      OperationsBase.poolImplicitPadding cls (self.int32Input 1) (self.int32Input 2)
        (self.int32Input 3) width height (self.int32Input 4) (self.int32Input 5) := by
    unfold OperationsBase.poolImplicitPadding
    rcases hscheme with hone | htwo
    · simp only [if_pos hone]
      obtain ⟨pads, -, hpads⟩ := fixed_calculateExplicitPadding PoolClass width
        (self.int32Input 2) (self.int32Input 4)
      obtain ⟨pads', -, hpads'⟩ := fixed_calculateExplicitPadding PoolClass height
        (self.int32Input 3) (self.int32Input 5)
      exact fixed_bind hpads (fixed_bind hpads' (fixed_pure ⟨_, rfl⟩))
    · have hone : self.int32Input 1 ≠ 1 := by omega
      have hknown : ∀ cls : PoolClass, ¬ (cls.schemeTwo ∧ self.int32Input 1 ≠ 2) :=
        fun cls h => h.2 htwo
      simp only [if_neg hone, if_neg (hknown _)]
      exact fixed_pure ⟨_, rfl⟩
  rcases hpadding with ⟨⟨paddings, autoPad⟩, ⟨pads, hpads⟩, hyields⟩
  subst hpads
  exact fixed_bind hyields (fixed_pure ⟨⟨_, rfl⟩, ⟨_, rfl⟩⟩)

theorem fixed_poolLocals (hcount : self.poolExplicit = true ∨ self.poolImplicit = true)
    (hscheme : self.poolExplicit = true ∨ self.int32Input 1 = 1 ∨ self.int32Input 1 = 2) :
    Fixed PoolLocals.Assigned fun cls : PoolClass => self.poolLocals cls := by
  unfold OperationsBase.poolLocals
  cases hexplicit : self.poolExplicit with
  | true =>
      simp only [if_true]
      exact fixed_poolExplicitLocals
  | false =>
      have himplicit : self.poolImplicit = true := by simpa [hexplicit] using hcount
      simp only [himplicit, Bool.false_eq_true, if_false, if_true]
      exact fixed_poolImplicitLocals (by simpa [hexplicit] using hscheme)

end Locals

/-! ## The pooling nodes -/

/-- The attributes of a pooling node. -/
def NodeOp.pooling : NodeOp → Option PoolAttrs
  | .maxPool attrs | .avgPool attrs _ => some attrs
  | _ => none

/-- The run makes no pooling node but with these attributes, and uses no variable that was not
assigned. -/
structure PassesOnly (attrs : PoolAttrs) (run : Ran NgraphNodes Cmd Stop Node) : Prop where
  passes : ∀ sc ∈ run.trace, ∀ op args, sc.2 = .make op args →
    ∀ passed, op.pooling = some passed → passed = attrs
  assigned : ∀ sc ∈ run.trace, sc.2 ≠ .fault .uninitialized

/-- Whatever ngraph and the nodes are, the three classes pass the same attributes, which the
operation alone determines. -/
def SamePooling (self : OperationsBase) : Prop :=
  ∃ attrs, ∀ (ng : Ngraph) (nodes : NgraphNodes),
    PassesOnly attrs (exec (answer ng) (MaxPool2d.createNode self) nodes) ∧
    PassesOnly attrs (exec (answer ng) (AveragePool2D.createNode self) nodes) ∧
    PassesOnly attrs (exec (answer ng) (L2Pooling2D.createNode self) nodes)

/-- A use of a variable that was not assigned. -/
def Cmd.unassignedUse : Cmd → Option Unit
  | .fault .uninitialized => some ()
  | _ => none

/-- A pooling node that is made, or a use of a variable that was not assigned. -/
def Cmd.poolStep : Cmd → Option (Option PoolAttrs)
  | .make (.maxPool attrs) _ | .make (.avgPool attrs _) _ => some (some attrs)
  | .fault .uninitialized => some none
  | _ => none

section Runs

variable {ng : Ngraph} {nodes : NgraphNodes} {self : OperationsBase} {attrs : PoolAttrs}

theorem poolStep_plain (c : Cmd) (hc : c.plain) : c.poolStep = none := by
  unfold Cmd.poolStep
  split
  · exact hc.elim
  · exact hc.elim
  · exact hc.elim
  · rfl

theorem poolStep_of_plain {α : Type} {p : Gen α} [hp : Plain p] : Quiet Cmd.poolStep p :=
  hp.quiet poolStep_plain

theorem passesOnly_of_follows {p : Gen Node} (hp : Follows Cmd.poolStep p [some attrs]) :
    PassesOnly attrs (exec (answer ng) p nodes) := by
  have hsteps : ∀ sc ∈ (exec (answer ng) p nodes).trace, ∀ step,
      Cmd.poolStep sc.2 = some step → step = some attrs := by
    intro sc hsc step hstep
    have hmem : step ∈ (exec (answer ng) p nodes).selected Cmd.poolStep :=
      List.mem_filterMap.mpr ⟨sc, hsc, hstep⟩
    exact List.mem_singleton.mp ((hp.trace_initial nodes).subset hmem)
  constructor
  · intro sc hsc op args hmake passed hpooling
    have hstep : Cmd.poolStep sc.2 = some (some passed) := by
      rw [hmake]
      cases op <;> first | exact congrArg some hpooling | cases hpooling
    exact Option.some.inj (hsteps sc hsc _ hstep)
  · intro sc hsc hfault
    have hstep := hsteps sc hsc none (by rw [hfault]; rfl)
    cases hstep

instance plain_parseInt32 (index : Nat) : Plain (self.parseInt32 index) := by
  unfold OperationsBase.parseInt32
  infer_instance

instance plain_convInputSizes (hasChannel useNchw : Bool) :
    Plain (self.convInputSizes hasChannel useNchw) := by
  unfold OperationsBase.convInputSizes
  infer_instance

set_option synthInstance.maxSize 4096 in
instance plain_poolExplicitLocals (cls : PoolClass) : Plain (self.poolExplicitLocals cls) := by
  unfold OperationsBase.poolExplicitLocals
  infer_instance

/-- The local variables are read without a selected command, where dividing is none. -/
theorem poolLocals_quiet {U : Type} {select : Cmd → Option U}
    (hselect : ∀ c : Cmd, c.plain → select c = none)
    (hdivide : select (.fault .divideByZero) = none) (cls : PoolClass) :
    Quiet select (self.poolLocals cls) := by
  have hplain : ∀ {α : Type} {p : Gen α} [hp : Plain p], Quiet select p :=
    fun {_ _ hp} => hp.quiet hselect
  have hpadding : ∀ inSize stride filterSize, Quiet select
      (calculateExplicitPadding inSize stride filterSize 1) := by
    intro inSize stride filterSize
    have hdivInt : ∀ a b, Quiet select (divInt a b) :=
      fun a b => (quiet_ite (quiet_perform hdivide) (quiet_pure _)).bind fun _ => quiet_pure _
    exact (hdivInt _ _).bind fun _ => quiet_ite (quiet_pure _) (quiet_pure _)
  refine quiet_ite ?_ (quiet_ite ?_ (quiet_pure _))
  · exact hplain
  · refine hplain.bind fun _ => hplain.bind fun _ => hplain.bind fun _ => hplain.bind fun _ => ?_
    refine hplain.bind fun _ => hplain.bind fun _ => hplain.bind fun _ => hplain.bind fun _ => ?_
    refine Quiet.bind (quiet_ite ?_ (quiet_ite (quiet_pure _) (quiet_pure _))) fun _ => quiet_pure _
    exact (hpadding _ _ _).bind fun _ => (hpadding _ _ _).bind fun _ => quiet_pure _

/-- The activation and the transposition back. -/
theorem tail_quiet {U : Type} {select : Cmd → Option U}
    (hselect : ∀ c : Cmd, c.plain → select c = none) {node : Node} {l : PoolLocals}
    (hl : ∃ activation, l.activationFn = some activation) :
    Quiet select (readLocal l.activationFn >>= fun activationFn =>
      applyActivation node activationFn >>= fun outputNode =>
        transposeUnless l.useNchw .nchwNhwc outputNode) := by
  rcases hl with ⟨activation, hactivation⟩
  rw [hactivation]
  have htail : Plain (applyActivation node activation >>= fun outputNode =>
      transposeUnless l.useNchw .nchwNhwc outputNode) := inferInstance
  exact htail.quiet hselect

theorem MaxPool2d.follows_createNode {l : PoolLocals} (hl : l.Assigned)
    (hlocals : Yields (· = l) (self.poolLocals MaxPool2d.cls))
    (hattrs : OperationsBase.poolAttrs l = pure attrs) :
    Follows Cmd.poolStep (MaxPool2d.createNode self) [some attrs] := by
  refine (poolLocals_quiet poolStep_plain rfl _).bind_yields hlocals ?_
  intro _ heq
  subst heq
  apply poolStep_of_plain.bind
  intro inputNode
  apply poolStep_of_plain.bind
  intro inputNode
  rw [hattrs]
  exact follows_perform_bind rfl fun node => tail_quiet poolStep_plain hl.activation

theorem AveragePool2D.follows_createNode {l : PoolLocals} (hl : l.Assigned)
    (hlocals : Yields (· = l) (self.poolLocals AveragePool2D.cls))
    (hattrs : OperationsBase.poolAttrs l = pure attrs) :
    Follows Cmd.poolStep (AveragePool2D.createNode self) [some attrs] := by
  apply poolStep_of_plain.bind
  intro inputNode
  refine (poolLocals_quiet poolStep_plain rfl _).bind_yields hlocals ?_
  intro _ heq
  subst heq
  apply poolStep_of_plain.bind
  intro inputNode
  rw [hattrs]
  exact follows_perform_bind rfl fun node => tail_quiet poolStep_plain hl.activation

theorem L2Pooling2D.follows_createNode {l : PoolLocals} (hl : l.Assigned)
    (hlocals : Yields (· = l) (self.poolLocals L2Pooling2D.cls))
    (hattrs : OperationsBase.poolAttrs l = pure attrs) :
    Follows Cmd.poolStep (L2Pooling2D.createNode self) [some attrs] := by
  refine (poolLocals_quiet poolStep_plain rfl _).bind_yields hlocals ?_
  intro _ heq
  subst heq
  apply poolStep_of_plain.bind
  intro inputNode
  apply (quiet_perform rfl).bind
  intro squared
  apply poolStep_of_plain.bind
  intro squared
  rw [hattrs]
  exact follows_perform_bind rfl fun node => (quiet_perform rfl).bind fun node =>
    tail_quiet poolStep_plain hl.activation

/-- The classes agree on an operation with explicit padding or one of the two schemes. -/
theorem samePooling (hcount : self.poolExplicit = true ∨ self.poolImplicit = true)
    (hscheme : self.poolExplicit = true ∨ self.int32Input 1 = 1 ∨ self.int32Input 1 = 2) :
    SamePooling self := by
  obtain ⟨l, hl, hlocals⟩ := fixed_poolLocals hcount hscheme
  rcases hl.attrs with ⟨attrs, hattrs⟩
  refine ⟨attrs, fun ng nodes => ⟨?_, ?_, ?_⟩⟩
  · exact passesOnly_of_follows (MaxPool2d.follows_createNode hl (hlocals _) hattrs)
  · exact passesOnly_of_follows (AveragePool2D.follows_createNode hl (hlocals _) hattrs)
  · exact passesOnly_of_follows (L2Pooling2D.follows_createNode hl (hlocals _) hattrs)

theorem unassignedUse_plain (c : Cmd) (hc : c.plain) : c.unassignedUse = none := by
  unfold Cmd.unassignedUse
  split
  · exact hc.elim
  · rfl

/-- Such a use is none of a run with all its variables assigned. -/
theorem PassesOnly.selected_nil {run : Ran NgraphNodes Cmd Stop Node}
    (h : PassesOnly attrs run) : run.selected Cmd.unassignedUse = [] := by
  apply List.filterMap_eq_nil_iff.mpr
  intro sc hsc
  unfold Cmd.unassignedUse
  split
  · next hfault => exact absurd hfault (h.assigned sc hsc)
  · rfl

/-- Another scheme leaves the four paddings of the third class unassigned. -/
theorem fixed_unpadded (hone : self.int32Input 1 ≠ 1) (htwo : self.int32Input 1 ≠ 2) :
    Fixed (fun l => Follows Cmd.unassignedUse (OperationsBase.poolAttrs l) [(), (), (), ()] ∧
      ∃ activation, l.activationFn = some activation)
      fun _ : Unit => self.poolImplicitLocals L2Pooling2D.cls := by
  refine fixed_bind (fun _ => yields_parseInt32) (fixed_bind (fun _ => yields_parseInt32) ?_)
  refine fixed_bind (fun _ => yields_parseInt32) (fixed_bind (fun _ => yields_parseInt32) ?_)
  refine fixed_bind (fun _ => yields_parseInt32) (fixed_bind (fun _ => yields_parseInt32) ?_)
  obtain ⟨useNchw, -, hnchw⟩ := fixed_useNchw Unit self 8 7
  refine fixed_bind hnchw ?_
  obtain ⟨sizes, -, hsizes⟩ := fixed_convInputSizes Unit self useNchw
  refine fixed_bind hsizes ?_
  have hunknown : L2Pooling2D.cls.schemeTwo ∧ self.int32Input 1 ≠ 2 := ⟨rfl, htwo⟩
  simp only [OperationsBase.poolImplicitPadding, if_neg hone, if_pos hunknown]
  refine fixed_bind (fun _ => rfl) (fixed_pure ⟨?_, ⟨_, rfl⟩⟩)
  refine follows_perform_bind rfl fun _ => follows_perform_bind rfl fun _ => ?_
  exact follows_perform_bind rfl fun _ => follows_perform_bind rfl fun _ => quiet_pure _

theorem L2Pooling2D.follows_unassigned (hexplicit : self.poolExplicit = false)
    (himplicit : self.poolImplicit = true) (hone : self.int32Input 1 ≠ 1)
    (htwo : self.int32Input 1 ≠ 2) :
    Follows Cmd.unassignedUse (L2Pooling2D.createNode self) [(), (), (), ()] := by
  obtain ⟨l, ⟨hattrs, hactivation⟩, hlocals⟩ := fixed_unpadded hone htwo
  have hread : Yields (· = l) (self.poolLocals L2Pooling2D.cls) := by
    unfold OperationsBase.poolLocals
    simp only [hexplicit, himplicit, Bool.false_eq_true, if_false, if_true]
    exact hlocals ()
  have hquiet : ∀ {α : Type} {p : Gen α} [hp : Plain p], Quiet Cmd.unassignedUse p :=
    fun {_ _ hp} => hp.quiet unassignedUse_plain
  refine (poolLocals_quiet unassignedUse_plain rfl _).bind_yields hread ?_
  intro _ heq
  subst heq
  apply hquiet.bind
  intro inputNode
  apply (quiet_perform rfl).bind
  intro squared
  apply hquiet.bind
  intro squared
  apply hattrs.bind_quiet
  intro attrs
  apply (quiet_perform rfl).bind
  intro node
  apply (quiet_perform rfl).bind
  intro node
  exact tail_quiet unassignedUse_plain hactivation

/-- **Pooling.**  Where the padding is explicit or the scheme is one of the two, the three
classes pass the same attributes and no variable that was not assigned; and an operation that
`L2Pooling2D` can build has one of these forms if they do. -/
theorem samePooling_iff (hcount : self.poolExplicit = true ∨ self.poolImplicit = true) :
    (self.poolExplicit = true ∨ self.int32Input 1 = 1 ∨ self.int32Input 1 = 2 →
      SamePooling self) ∧
    ∀ (ng : Ngraph) (nodes : NgraphNodes) (node : Node),
      (exec (answer ng) (L2Pooling2D.createNode self) nodes).outcome = .ok node →
      SamePooling self →
      self.poolExplicit = true ∨ self.int32Input 1 = 1 ∨ self.int32Input 1 = 2 := by
  refine ⟨samePooling hcount, fun ng nodes node hrun hsame => ?_⟩
  cases hexplicit : self.poolExplicit with
  | true => exact .inl rfl
  | false =>
      refine .inr ?_
      by_contra hscheme
      rw [not_or] at hscheme
      have himplicit : self.poolImplicit = true := by simpa [hexplicit] using hcount
      have hselected := (L2Pooling2D.follows_unassigned hexplicit himplicit hscheme.1
        hscheme.2).trace_eq hrun
      rcases hsame with ⟨attrs, hpasses⟩
      have hnone := (hpasses ng nodes).2.2.selected_nil
      rw [hselected] at hnone
      cases hnone

/-- Pooling with windows of two by two in an input of four by four, by a scheme. -/
def poolOperation (scheme : UInt8) : OperationsBase :=
  sampleOperation .l2Pool2d [[1, 4, 4, 1]]
    [(.int32, scheme), (.int32, 2), (.int32, 2), (.int32, 2), (.int32, 2), (.int32, 0)]

theorem poolOperation_same : SamePooling (poolOperation 1) :=
  (samePooling_iff (.inr (by decide))).1 (.inr (.inl (by decide)))

/-- With the scheme three the paddings of the third class are not assigned. -/
theorem schemeThree_unassigned :
    ¬ ∀ self : OperationsBase, self.poolExplicit = true ∨ self.poolImplicit = true →
      SamePooling self := by
  intro h
  obtain ⟨attrs, hpasses⟩ := h (poolOperation 3) (.inr (by decide))
  have hnone := (hpasses .permissive (sampleNodes [[1, 4, 4, 1]])).2.2.selected_nil
  have hfour : (exec (answer .permissive) (L2Pooling2D.createNode (poolOperation 3))
      (sampleNodes [[1, 4, 4, 1]])).selected Cmd.unassignedUse = [(), (), (), ()] := by decide
  rw [hfour] at hnone
  cases hnone

end Runs

end NnHal
