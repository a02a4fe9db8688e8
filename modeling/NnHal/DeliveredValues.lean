import NnHal.CopyBounds
import NnHal.GraphMeaning
import NnHal.TensorBuffers
import NnHal.ThreePaths

/-!
# What the client gets

An execution copies the client's inputs into the blobs of the parameters, lets
the engine compute the function that was generated, and copies the blobs of the
results into the client's buffers.  So where the engine computes what the graph
denotes, a successful execution leaves the values of the model outputs in the
buffers, in the format that the copies make of the engine's.
-/

namespace NnHal

open Command Tensors Quantization StraightLine BasePreparedModel

/-! ## Formats -/

namespace Conversions

variable (conversions : Conversions)

/-- The format of a client's input that is copied into a blob of this format. -/
def clientInput (type : OperandType) (f : Format ℝ) : Format ℝ :=
  match type with
  | .tensorFloat16 => f.convertedFrom 2 conversions.widen
  | _ => f

/-- The format of a client's output that a blob of this format is copied into. -/
def clientOutput (type : OperandType) (f : Format ℝ) : Format ℝ :=
  match type with
  | .tensorBool8 | .tensorQuant8Asymm => f.converted 1 conversions.toUint8
  | .tensorQuant8Symm | .tensorQuant8SymmPerChannel | .tensorQuant8AsymmSigned =>
      f.converted 1 conversions.toInt8
  | .tensorFloat16 => f.converted 2 conversions.toFloat16
  | .tensorQuant16Symm => f.converted 2 conversions.toInt16
  | .tensorQuant16Asymm => f.converted 2 conversions.toUInt16
  | _ => f

variable {conversions : Conversions} {f : Format ℝ} {src : List UInt8} {x : Tensor ℝ}

/-- What an input copy writes holds the tensor of the client's buffer. -/
theorem inputBytes_holds {type : OperandType} {len : Nat} (hlen : len ≤ src.length)
    (hsize : type = .tensorFloat16 → f.size = 4)
    (h : (conversions.clientInput type f).Holds (src.take len) x) :
    f.Holds (conversions.inputBytes type src len) x := by
  cases type with
  | tensorFloat16 =>
      have hwiden : ∀ bytes, (conversions.widen bytes).length = f.size := by
        intro bytes
        rw [hsize rfl, conversions.length_widen]
      have hlength : len = 2 * x.shape.prod := by
        have hcount : (src.take len).length = 2 * x.shape.prod := h.length
        rwa [List.length_take_of_le hlen] at hcount
      have hbytes : conversions.inputBytes .tensorFloat16 src len =
          mapElements 2 x.shape.prod conversions.widen (src.take len) := by
        have hhalf : len / 2 = x.shape.prod := by omega
        unfold inputBytes mapElements element
        rw [hhalf]
        apply List.flatMap_congr
        intro i hi
        have hi' := List.mem_range.mp hi
        rw [List.drop_take, List.take_take, Nat.min_eq_left (by omega)]
      rw [hbytes]
      exact Format.Holds.convertedFrom h hwiden
  | _ => exact h

/-- What an output copy writes holds the tensor of the blob. -/
theorem outputBytes_holds {type : OperandType} (hsize : f.size = 4) (h : f.Holds src x) :
    (conversions.clientOutput type f).Holds (conversions.outputBytes type src) x := by
  have hcount : src.length / 4 = x.shape.prod := by
    rw [h.length, hsize]
    omega
  have hmap : ∀ (convert : List UInt8 → List UInt8) (width : Nat),
      (∀ bytes, (convert bytes).length = width) →
      (f.converted width convert).Holds
        (((List.range (src.length / 4)).map fun i => (src.drop (4 * i)).take 4).flatMap convert)
          x := by
    intro convert width hconvert
    have hconverted := h.converted hconvert
    rw [hsize] at hconverted
    rw [hcount, List.flatMap_map]
    exact hconverted
  cases type with
  | tensorBool8 | tensorQuant8Asymm => exact hmap _ _ conversions.length_toUint8
  | tensorQuant8Symm | tensorQuant8SymmPerChannel | tensorQuant8AsymmSigned =>
      exact hmap _ _ conversions.length_toInt8
  | tensorFloat16 => exact hmap _ _ conversions.length_toFloat16
  | tensorQuant16Symm => exact hmap _ _ conversions.length_toInt16
  | tensorQuant16Asymm => exact hmap _ _ conversions.length_toUInt16
  | _ => exact h

end Conversions

/-! ## Regions -/

/-- The bytes an argument lies in. -/
def RequestArgument.region (arg : RequestArgument) (pools : List HidlMemory)
    (memory : Nat → List UInt8) : List UInt8 :=
  ((memory (arg.object pools)).drop arg.location.offset).take arg.location.length

/-- Two arguments have no byte in common. -/
def RequestArgument.Apart (pools : List HidlMemory) (arg other : RequestArgument) : Prop :=
  arg.object pools ≠ other.object pools ∨
    arg.location.offset + arg.location.length ≤ other.location.offset ∨
      other.location.offset + other.location.length ≤ arg.location.offset

instance (pools : List HidlMemory) (arg other : RequestArgument) :
    Decidable (arg.Apart pools other) :=
  inferInstanceAs (Decidable (_ ∨ _))

section Regions

variable {pools : List HidlMemory} {arg other : RequestArgument} {bytes : List UInt8}
variable {memory memory' : Nat → List UInt8}

theorem getElem?_region (k : Nat) :
    (arg.region pools memory)[k]? =
      if k < arg.location.length then (memory (arg.object pools))[arg.location.offset + k]?
      else none := by
  unfold RequestArgument.region
  by_cases hk : k < arg.location.length
  · rw [List.getElem?_take_of_lt hk, List.getElem?_drop, if_pos hk]
  · rw [List.getElem?_eq_none, if_neg hk]
    rw [List.length_take]
    omega

/-- A region that is written holds what is written. -/
theorem WritesRegion.region_eq (h : WritesRegion pools arg bytes memory memory') :
    arg.region pools memory' = bytes := by
  apply List.ext_getElem?
  intro k
  rw [getElem?_region]
  by_cases hk : k < arg.location.length
  · rw [if_pos hk, h.region k hk]
  · rw [if_neg hk, List.getElem?_eq_none]
    rw [h.length]
    omega

/-- A region apart from the one that is written stays as it is. -/
theorem WritesRegion.region_of_apart (h : WritesRegion pools arg bytes memory memory')
    (hapart : arg.Apart pools other) : other.region pools memory' = other.region pools memory := by
  apply List.ext_getElem?
  intro k
  rw [getElem?_region, getElem?_region]
  by_cases hk : k < other.location.length
  · rw [if_pos hk, if_pos hk]
    by_cases hobject : other.object pools = arg.object pools
    · rw [hobject]
      apply h.outside
      rcases hapart with hne | hbefore | hafter
      · exact absurd hobject.symm hne
      · right
        omega
      · left
        omega
    · rw [h.elsewhere _ hobject]
  · rw [if_neg hk, if_neg hk]

end Regions

/-! ## The copies of an execution -/

section Copies

variable {pm : BasePreparedModel} {b : Behaviour} {pools : List HidlMemory}
variable {memory : Nat → List UInt8}

/-- What is copied into the blobs stays there, as far as copies into one blob
agree about it. -/
theorem foldl_inputBlobsAfter {P : String → List UInt8 → Prop} {inputs : List RequestArgument}
    {is : List Nat} {blobs : String → List UInt8}
    (hcontents : ∀ i ∈ is, pm.inputNodeName i ≠ "" ∧
      (pm.inputContents pools memory inputs i).length = (blobs (pm.inputNodeName i)).length ∧
        P (pm.inputNodeName i) (pm.inputContents pools memory inputs i))
    {name : String} (hname : P name (blobs name) ∨ ∃ i ∈ is, pm.inputNodeName i = name) :
    P name (is.foldl (pm.inputBlobsAfter pools memory inputs) blobs name) := by
  induction is generalizing blobs with
  | nil =>
      rcases hname with hP | ⟨i, hi, -⟩
      · exact hP
      · cases hi
  | cons i is ih =>
      obtain ⟨hnamed, hlength, hP⟩ := hcontents i List.mem_cons_self
      have hafter : pm.inputBlobsAfter pools memory inputs blobs i =
          Function.update blobs (pm.inputNodeName i) (pm.inputContents pools memory inputs i) := by
        unfold BasePreparedModel.inputBlobsAfter overwrite
        rw [if_neg hnamed, ← hlength, List.take_length, List.drop_eq_nil_of_le (Nat.le_of_eq
          hlength.symm), List.append_nil]
      rw [List.foldl_cons, hafter]
      apply ih
      · intro j hj
        obtain ⟨hnamed', hlength', hP'⟩ := hcontents j (List.mem_cons_of_mem _ hj)
        refine ⟨hnamed', ?_, hP'⟩
        by_cases heq : pm.inputNodeName j = pm.inputNodeName i
        · rw [heq, Function.update_self, hlength', heq, hlength]
        · rw [Function.update_of_ne heq, hlength']
      · by_cases heq : name = pm.inputNodeName i
        · left
          rw [heq, Function.update_self]
          exact hP
        · rw [Function.update_of_ne heq]
          refine hname.imp_right fun hmem => ?_
          obtain ⟨j, hj, rfl⟩ := hmem
          rcases List.mem_cons.mp hj with rfl | hj
          · exact absurd rfl heq
          · exact ⟨j, hj, rfl⟩

variable {outputs : List RequestArgument} {outputBlobs : String → List UInt8}

/-- A loop that copies every output writes them one after the other. -/
theorem outputsEffect_completed {scalarDims : Bool} {is : List Nat} {shapes : List OutputShape}
    (hnamed : ∀ i ∈ is, pm.outputNodeName i ≠ "")
    (hend : pm.outputsEnd b pools outputs is = some true) :
    (pm.outputsEffect b pools scalarDims outputs outputBlobs is memory shapes).1 =
        is.foldl (pm.memoryAfter pools outputs outputBlobs) memory ∧
      ∀ i ∈ is, pm.Sufficient outputs i := by
  induction is generalizing memory shapes with
  | nil => exact ⟨rfl, nofun⟩
  | cons i is ih =>
      simp only [BasePreparedModel.outputsEnd] at hend
      simp only [BasePreparedModel.outputsEffect]
      cases hi : pm.outputCopy b pools outputs i with
      | none => simp [hi] at hend
      | some copy =>
          have hcopy := outputCopy_of_named (hnamed i List.mem_cons_self) hi
          obtain ⟨-, -, ⟨rfl, -⟩ | ⟨rfl, hsufficient, -⟩⟩ := hcopy
          · simp [hi] at hend
          · rw [hi] at hend
            have hrest := @ih (pm.memoryAfter pools outputs outputBlobs memory i)
              (pm.shapesAfter scalarDims outputs shapes i)
              (fun j hj => hnamed j (List.mem_cons_of_mem _ hj)) hend
            exact ⟨hrest.1, List.forall_mem_cons.mpr ⟨hsufficient, hrest.2⟩⟩

/-- The bytes of an output. -/
def BasePreparedModel.outputContents (pm : BasePreparedModel) (outputBlobs : String → List UInt8)
    (i : Nat) : List UInt8 :=
  pm.conversions.outputBytes (pm.outputType i) (outputBlobs (pm.outputNodeName i))

/-- Outputs written to regions apart from each other stay where they are. -/
theorem region_foldl_memoryAfter {is : List Nat} (hnodup : is.Nodup)
    (hwrites : ∀ i ∈ is, (outputs.getD i default).Inside pools memory ∧
      (pm.outputContents outputBlobs i).length = (outputs.getD i default).location.length)
    (hapart : ∀ i ∈ is, ∀ j ∈ is, i ≠ j →
      (outputs.getD i default).Apart pools (outputs.getD j default)) {k : Nat} :
    (k ∈ is → (outputs.getD k default).region pools
      (is.foldl (pm.memoryAfter pools outputs outputBlobs) memory) =
        pm.outputContents outputBlobs k) ∧
    ((∀ i ∈ is, (outputs.getD i default).Apart pools (outputs.getD k default)) →
      (outputs.getD k default).region pools
        (is.foldl (pm.memoryAfter pools outputs outputBlobs) memory) =
          (outputs.getD k default).region pools memory) := by
  induction is generalizing memory with
  | nil => exact ⟨nofun, fun _ => rfl⟩
  | cons i is ih =>
      obtain ⟨hi, hrestNodup⟩ := List.nodup_cons.mp hnodup
      obtain ⟨hinside, hlength⟩ := hwrites i List.mem_cons_self
      have hfirst : WritesRegion pools (outputs.getD i default) (pm.outputContents outputBlobs i)
          memory (pm.memoryAfter pools outputs outputBlobs memory i) :=
        writesRegion_update hinside hlength
      have hrest := @ih (pm.memoryAfter pools outputs outputBlobs memory i) hrestNodup
        (fun j hj => ?_) fun j hj k hk => hapart j (List.mem_cons_of_mem _ hj) k
          (List.mem_cons_of_mem _ hk)
      · rw [List.foldl_cons]
        constructor
        · intro hk
          rcases List.mem_cons.mp hk with rfl | hk
          · rw [hrest.2 fun j hj => hapart j (List.mem_cons_of_mem _ hj) k List.mem_cons_self
              fun heq => hi (heq ▸ hj)]
            exact hfirst.region_eq
          · exact hrest.1 hk
        · intro hall
          rw [hrest.2 fun j hj => hall j (List.mem_cons_of_mem _ hj)]
          exact hfirst.region_of_apart (hall i List.mem_cons_self)
      · obtain ⟨hinside', hlength'⟩ := hwrites j (List.mem_cons_of_mem _ hj)
        refine ⟨?_, hlength'⟩
        unfold RequestArgument.Inside at hinside' ⊢
        rwa [length_memoryAfter]

end Copies

/-! ## Success -/

section Success

variable {pm : BasePreparedModel} {b : Behaviour} {call : ExecuteCall} {s : SharedState}

/-- The callback hears of the call that it succeeded. -/
def Succeeds (pm : BasePreparedModel) (b : Behaviour) (call : ExecuteCall) (s : SharedState) :
    Prop :=
  ∃ n ∈ (exec (executionAnswer pm b) call.program s).selected ExecutionCmd.notification,
    n.status = .none

/-- A call that is not refused, whose pools are mapped, notifies of the end of its
phases. -/
theorem succeeds_completed {mapPools : Execution ErrorStatus} {report : PhasesEnd → Execution Unit}
    (hprogram : call.program = phases call.scalarDims mapPools call.inputs call.outputs >>= report)
    (hmap : MapsPools pm b call.pools mapPools) (hreport : Reports report)
    (hsucceeds : Succeeds pm b call s) {phasesEnd : PhasesEnd}
    (hmapped : phasesEnd ≠ .unmapped .none)
    (houtcome : (exec (executionAnswer pm b)
      (phases call.scalarDims mapPools call.inputs call.outputs) s).outcome = .ok phasesEnd) :
    ∃ updated, phasesEnd = .completed updated := by
  obtain ⟨m, hm, hnone⟩ := hsucceeds
  obtain ⟨n, hn, hstatus, -⟩ := notification_of_ok hprogram hmap hreport hmapped houtcome
  rw [hn, List.mem_singleton] at hm
  exact hstatus (hm ▸ hnone)

/-- A call that succeeds has gone through all its phases, and leaves the memory
that their copies make. -/
theorem memory_of_succeeds (h : Succeeds pm b call s) :
    pm.requestOutputsEnd b call.pools call.outputs = some true ∧
      (exec (executionAnswer pm b) call.program s).state.memory =
        (pm.requestEffect b call.pools call.scalarDims call.inputs call.outputs s).1 := by
  cases hrefused : call.refused with
  | true =>
      obtain ⟨n, hn, hprogram⟩ := ExecuteCall.program_refused hrefused
      obtain ⟨m, hm, hnone⟩ := h
      rw [hprogram] at hm
      obtain rfl := List.mem_singleton.mp hm
      exact absurd hnone hn
  | false =>
      obtain ⟨mapPools, report, hmap, hreports, hprogram⟩ :=
        ExecuteCall.program_report hrefused pm b
      have hreport : Reports report ∧ TellsStatus report := by
        rcases hreports with ⟨rfl, -⟩ | ⟨rfl, -⟩ | ⟨rfl, -⟩
        · exact ⟨asyncReport_reports, asyncReport_tellsStatus⟩
        · exact ⟨syncReport_reports, syncReport_tellsStatus⟩
        · exact ⟨fencedReport_reports, fencedReport_tellsStatus⟩
      have hcompleted := fun phasesEnd => @succeeds_completed pm b call s mapPools report hprogram
        hmap hreport.1 h phasesEnd
      cases hmaps : mapsAll b.maps 0 call.pools with
      | false =>
          obtain ⟨⟨status, hstatus, houtcome⟩, -⟩ := @phases_unmapped pm b call.pools s
            call.scalarDims mapPools call.inputs call.outputs hmap hmaps
          obtain ⟨updated, hend⟩ := hcompleted (.unmapped status)
            (fun heq => hstatus (PhasesEnd.unmapped.inj heq)) houtcome
          cases hend
      | true =>
          by_cases hstops : ¬ pm.InputsPass b call.pools call.inputs ∨
              b.infers = true ∧ pm.requestOutputsEnd b call.pools call.outputs = none
          · obtain ⟨e, he⟩ := @phases_error pm b call.pools s call.scalarDims mapPools call.inputs
              call.outputs hmap hmaps hstops
            have hsilent := (quiet_phases hmap call.scalarDims call.inputs
              call.outputs).selected_nil (executionAnswer pm b) s
            obtain ⟨m, hm, -⟩ := h
            rw [hprogram, exec_bind_error he] at hm
            exact absurd (hsilent ▸ hm : m ∈ []) List.not_mem_nil
          · obtain ⟨hinputs, hends⟩ := not_or.mp hstops
            rw [not_not] at hinputs
            cases hinfers : b.infers with
            | false =>
                obtain ⟨houtcome, -⟩ := @phases_notInferred pm b call.pools s call.scalarDims
                  mapPools call.inputs call.outputs hmap hmaps hinputs hinfers
                obtain ⟨updated, hend⟩ := hcompleted .notInferred nofun houtcome
                cases hend
            | true =>
                cases hend : pm.requestOutputsEnd b call.pools call.outputs with
                | none => exact absurd ⟨hinfers, hend⟩ hends
                | some all =>
                    obtain ⟨houtcome, hmemory, -⟩ := @phases_outputsEnd pm b call.pools s
                      call.scalarDims mapPools call.inputs call.outputs hmap hmaps hinputs hinfers
                      all hend
                    cases all with
                    | false =>
                        obtain ⟨updated, hend⟩ := hcompleted .insufficient nofun houtcome
                        cases hend
                    | true =>
                        have hstate := (hreport.2 pm b (.completed true) (exec
                          (executionAnswer pm b) (phases call.scalarDims mapPools call.inputs
                            call.outputs) s).state rfl).2
                        refine ⟨rfl, ?_⟩
                        rw [hprogram, exec_bind_ok houtcome, Ran.state_after]
                        exact (congrArg SharedState.memory hstate).trans hmemory

end Success

/-! ## A prepared model -/

variable {pm : BasePreparedModel} {b : Behaviour} {call : ExecuteCall} {s : SharedState}
variable {M : Meaning ℝ} {ng : Ngraph} {info : NnapiModelInfo} {device : IntelDeviceType}
variable {function : NgraphFunction} {format : Node → Format ℝ} {env : Environment (Tensor ℝ)}

/-- The prepared model knows its blobs by the names of the nodes that graph
generation has bound. -/
structure BasePreparedModel.PreparedFrom (pm : BasePreparedModel) (info : NnapiModelInfo)
    (device : IntelDeviceType) (ng : Ngraph) : Prop where
  model : pm.mModel = info.mModel
  names : ∀ i, pm.getNodeName i =
    (NgraphNetworkCreator.graphRun info device ng).state.nodeName ng i

/-- The engine computes the function: the blob of every node has a format, the
parameters have blobs of their own, and where these hold what the parameters denote,
the blobs of the results come to hold what the results denote.  Results and halves
take four bytes. -/
structure BasePreparedModel.Computes (pm : BasePreparedModel) (ng : Ngraph) (M : Meaning ℝ)
    (format : Node → Format ℝ) (function : NgraphFunction) : Prop where
  named : ∀ node, node ∈ function.parameters ∨ some node ∈ function.results → ng.getName node ≠ ""
  distinct : ∀ param ∈ function.parameters, ∀ other ∈ function.parameters,
    ng.getName param = ng.getName other → param = other
  half : ∀ i shape, (format (.mk (.parameter i .f16 shape) [])).size = 4
  float : ∀ node, some node ∈ function.results → (format node).size = 4
  infers : ∀ blobs, (∀ param ∈ function.parameters,
      (format param).Holds (blobs (ng.getName param)) (param.denote M 0)) →
    ∀ node, some node ∈ function.results →
      (format node).Holds (pm.infer blobs (ng.getName node)) (node.denote M 0)

/-- The request has an argument for every input and output of the model; its inputs
fill their blobs, and its outputs lie apart from each other. -/
structure ExecuteCall.Suits (call : ExecuteCall) (pm : BasePreparedModel) (s : SharedState) :
    Prop where
  inputs : call.inputs.length = pm.mModel.inputIndexes.length
  outputs : call.outputs.length = pm.mModel.outputIndexes.length
  inputsInside : ∀ arg ∈ call.inputs, arg.Inside call.pools s.memory
  outputsInside : ∀ arg ∈ call.outputs, arg.Inside call.pools s.memory
  fills : ∀ k < call.inputs.length,
    (pm.inputType k).inputLength (call.inputs.getD k default).location.length =
      (s.inputBlobs (pm.inputNodeName k)).length
  apart : ∀ j < call.outputs.length, ∀ k < call.outputs.length, j ≠ k →
    (call.outputs.getD j default).Apart call.pools (call.outputs.getD k default)
  small : ∀ k < call.outputs.length, pm.outputByteSize (pm.outputNodeName k) < 2 ^ 32

/-- The client's buffers hold the inputs, in the formats that the copies make those of
the blobs. -/
def ExecuteCall.Provides (call : ExecuteCall) (pm : BasePreparedModel) (info : NnapiModelInfo)
    (format : Node → Format ℝ) (s : SharedState) (inputs : Nat → Tensor ℝ) : Prop :=
  ∀ k < call.inputs.length, ∀ param, IsParameter info param (pm.inIndex k) →
    (pm.conversions.clientInput (pm.inputType k) (format param)).Holds
      ((call.inputs.getD k default).region call.pools s.memory) (inputs (pm.inIndex k))

/-- A bound operand is known by the name of its node. -/
theorem nodeName_of_bound {nodes : NgraphNodes} (hnames : nodes.mNodeNames = fun _ => none)
    {i : Nat} {node : Node} (hbound : nodes.mOutputAtOperandIndex i = some (node, 0)) :
    nodes.nodeName ng i = some (ng.getName node) := by
  unfold NgraphNodes.nodeName
  rw [hnames, hbound]
  rfl

theorem getD_mem {α : Type} [Inhabited α] {as : List α} {k : Nat} (h : k < as.length) (a : α) :
    as.getD k a ∈ as := by
  rw [List.getD_eq_getElem _ _ h]
  exact List.getElem_mem h

/-- The arguments of the inputs are those of the model inputs. -/
theorem inIndex_mem (hpm : pm.PreparedFrom info device ng) (hsuits : call.Suits pm s) {k : Nat}
    (hk : k < call.inputs.length) : pm.inIndex k ∈ info.getModelInputIndexes := by
  have hindexes : info.getModelInputIndexes = pm.mModel.inputIndexes := by
    rw [hpm.model]
    rfl
  rw [hindexes]
  exact getD_mem (hsuits.inputs ▸ hk) 0

theorem exists_inIndex (hpm : pm.PreparedFrom info device ng) (hsuits : call.Suits pm s) {i : Nat}
    (hi : i ∈ info.getModelInputIndexes) : ∃ k < call.inputs.length, pm.inIndex k = i := by
  have hindexes : info.getModelInputIndexes = pm.mModel.inputIndexes := by
    rw [hpm.model]
    rfl
  rw [hindexes] at hi
  obtain ⟨k, hk, rfl⟩ := List.mem_iff_getElem.mp hi
  exact ⟨k, hsuits.inputs ▸ hk, List.getD_eq_getElem _ _ hk⟩

section Delivery

variable {inputs : Nat → Tensor ℝ}

/-- What the copy of an argument writes holds what its parameter denotes. -/
theorem inputContents_hold (hpm : pm.PreparedFrom info device ng)
    (hengine : pm.Computes ng M format function) (hfeeds : M.Feeds inputs)
    (hadmits : ∀ i ∈ info.getModelInputIndexes, info.Admits i (inputs i))
    (hsuits : call.Suits pm s) (hprovides : call.Provides pm info format s inputs) {k : Nat}
    (hk : k < call.inputs.length) {param : Node} (hparam : IsParameter info param (pm.inIndex k)) :
    (pm.inputContents call.pools s.memory call.inputs k).length =
        (s.inputBlobs (pm.inputNodeName k)).length ∧
      (format param).Holds (pm.inputContents call.pools s.memory call.inputs k)
        (param.denote M 0) := by
  have hinside : (call.inputs.getD k default).Inside call.pools s.memory :=
    hsuits.inputsInside _ (getD_mem hk _)
  have hlen : (call.inputs.getD k default).location.length ≤
      ((s.memory ((call.inputs.getD k default).object call.pools)).drop
        (call.inputs.getD k default).location.offset).length := by
    unfold RequestArgument.Inside at hinside
    rw [List.length_drop]
    omega
  have hheld := hprovides k hk param hparam
  obtain ⟨type, htype, rfl⟩ := hparam
  refine ⟨?_, ?_⟩
  · rw [← hsuits.fills k hk]
    exact pm.conversions.length_inputBytes _ hlen
  · rw [denote_parameter hfeeds (hadmits _ (inIndex_mem hpm hsuits hk)) htype]
    refine Conversions.inputBytes_holds hlen (fun hhalf => ?_) hheld
    have hoperand : (info.getOperand (pm.inIndex k)).type = .tensorFloat16 := by
      rw [← hhalf, BasePreparedModel.inputType, hpm.model]
      rfl
    rw [hoperand] at htype
    obtain rfl := Option.some.inj htype
    exact hengine.half _ _

/-- The blobs the engine infers from hold what the parameters denote. -/
theorem requestBlobs_hold (hpm : pm.PreparedFrom info device ng)
    (hcarries : (NgraphNetworkCreator.graphRun info device ng).state.Carries M info env)
    (hparams : function.parameters =
      (NgraphNetworkCreator.graphRun info device ng).state.mInputParams)
    (hengine : pm.Computes ng M format function) (hfeeds : M.Feeds inputs)
    (hadmits : ∀ i ∈ info.getModelInputIndexes, info.Admits i (inputs i))
    (hsuits : call.Suits pm s) (hprovides : call.Provides pm info format s inputs) :
    ∀ param ∈ function.parameters, (format param).Holds
      (pm.requestBlobs call.pools call.inputs s (ng.getName param)) (param.denote M 0) := by
  have hname : ∀ k param, (NgraphNetworkCreator.graphRun info device ng).state.BindsParameter info
      param (pm.inIndex k) → pm.inputNodeName k = ng.getName param := by
    intro k param hbinds
    rw [BasePreparedModel.inputNodeName, hpm.names, nodeName_of_bound hcarries.names hbinds.2]
    rfl
  intro param hparam
  refine @foldl_inputBlobsAfter pm call.pools s.memory (fun name bytes =>
    ∀ param ∈ function.parameters, ng.getName param = name →
      (format param).Holds bytes (param.denote M 0)) call.inputs _ s.inputBlobs ?_ _ ?_ param
        hparam rfl
  · intro k hk
    replace hk := List.mem_range.mp hk
    obtain ⟨own, hown, hbinds⟩ :=
      exists_mem_of_forall₂ hcarries.params (inIndex_mem hpm hsuits hk)
    rw [← hparams] at hown
    have hcopied := inputContents_hold hpm hengine hfeeds hadmits hsuits hprovides hk hbinds.1
    rw [hname k own hbinds] at hcopied ⊢
    refine ⟨hengine.named own (.inl hown), hcopied.1, fun other hother hsame => ?_⟩
    rw [hengine.distinct other hother own hown hsame]
    exact hcopied.2
  · right
    rw [hparams] at hparam
    obtain ⟨i, hi, hbinds⟩ := exists_mem_of_forall₂ hcarries.params.flip hparam
    obtain ⟨k, hk, rfl⟩ := exists_inIndex hpm hsuits hi
    exact ⟨k, List.mem_range.mpr hk, hname k param hbinds⟩

/-- The node of a model output is a result, and denotes the output's value. -/
theorem result_of_output (hpm : pm.PreparedFrom info device ng)
    (hcarries : (NgraphNetworkCreator.graphRun info device ng).state.Carries M info env)
    (hmodel : info.mModel.WellFormed) (hwrites : info.mModel.WritesOutputs)
    (heval : info.evaluate inputs = some env) (hsuits : call.Suits pm s) {k : Nat}
    (hk : k < call.outputs.length) :
    ∃ node x, some node ∈ (NgraphNetworkCreator.graphRun info device ng).state.mResultNodes ∧
      pm.outputNodeName k = ng.getName node ∧ env (pm.outIndex k) = some x ∧
        node.denote M 0 = x := by
  have hmem : pm.outIndex k ∈ info.mModel.outputIndexes := by
    rw [← hpm.model]
    exact getD_mem (hsuits.outputs ▸ hk) 0
  have hlifetime := hmodel.2.2.2.1 _ hmem
  have hlt : pm.outIndex k < info.mModel.operands.length := by
    by_contra hge
    rw [Model.operand, List.getD_eq_default _ _ (Nat.le_of_not_lt hge)] at hlifetime
    cases hlifetime
  have hwritten : pm.outIndex k ∈ info.mModel.operations.flatMap (·.outputs) := by
    apply hwrites _ hlt
    rw [hlifetime]
    decide
  have hout : pm.outIndex k ∈
      (info.mModel.operations.flatMap (·.outputs)).filter info.isOutput :=
    List.mem_filter.mpr ⟨hwritten, decide_eq_true hlifetime⟩
  obtain ⟨result, hresult, hbinds⟩ := exists_mem_of_forall₂ hcarries.results hout
  have hvalue : (env (pm.outIndex k)).isSome = true := by
    apply isSome_of_mem_targets heval
    unfold targets
    rw [List.flatMap_map]
    exact hwritten
  obtain ⟨node, x, rfl, hx, hdenote⟩ := resultDenotes_of_binds hcarries.denote hbinds hvalue
  obtain ⟨node', hsame, hbound⟩ := hbinds
  obtain rfl := Option.some.inj hsame
  refine ⟨node, x, hresult, ?_, hx, hdenote⟩
  rw [BasePreparedModel.outputNodeName, hpm.names, nodeName_of_bound hcarries.names hbound]
  rfl

/-- Once the outputs are copied, their buffers hold the values of the model outputs. -/
theorem copied_outputs_hold (hM : M.Documented) (hng : ng.Infers M) (hfeeds : M.Feeds inputs)
    (hdevice : device ≠ .vpu) (hmodel : info.mModel.WellFormed)
    (hwrites : info.mModel.WritesOutputs)
    (hsized : ∀ i ∈ info.getModelInputIndexes,
      NgraphNetworkCreator.zeroSized (info.getOperand i) = false)
    (hadmits : ∀ i ∈ info.getModelInputIndexes, info.Admits i (inputs i))
    (heval : info.evaluate inputs = some env)
    (hgraph : (NgraphNetworkCreator.construct info device).1.generateGraph
      (NgraphNetworkCreator.construct info device).2 ng = .ok (some function))
    (hpm : pm.PreparedFrom info device ng) (hengine : pm.Computes ng M format function)
    (hsuits : call.Suits pm s) (hprovides : call.Provides pm info format s inputs)
    (hsufficient : ∀ i ∈ List.range call.outputs.length, pm.Sufficient call.outputs i) :
    ∀ k < call.outputs.length, ∃ node x, some node ∈ function.results ∧
      env (pm.outIndex k) = some x ∧
        (pm.conversions.clientOutput (pm.outputType k) (format node)).Holds
          ((call.outputs.getD k default).region call.pools
            ((List.range call.outputs.length).foldl (pm.memoryAfter call.pools call.outputs
              (pm.infer (pm.requestBlobs call.pools call.inputs s))) s.memory)) x := by
  obtain ⟨hrun, hparameters, hresults⟩ := generateGraph_eq_some hgraph
  have hcarries := graphRun_carries hM hng hfeeds hdevice hmodel hsized heval hrun
  have hblobs := requestBlobs_hold hpm hcarries hparameters hengine hfeeds hadmits hsuits hprovides
  have hinferred := hengine.infers _ hblobs
  intro k hk
  obtain ⟨node, x, hresult, hname, hx, hdenote⟩ :=
    result_of_output hpm hcarries hmodel hwrites heval hsuits hk
  rw [← hresults] at hresult
  refine ⟨node, x, hresult, hx, ?_⟩
  have hregion := (@region_foldl_memoryAfter pm call.pools s.memory call.outputs
    (pm.infer (pm.requestBlobs call.pools call.inputs s)) _ List.nodup_range ?_ ?_ k).1
      (List.mem_range.mpr hk)
  · rw [hregion]
    have hheld := hinferred node hresult
    rw [hdenote, ← hname] at hheld
    exact Conversions.outputBytes_holds (hengine.float node hresult) hheld
  · intro i hi
    have hi' := List.mem_range.mp hi
    refine ⟨hsuits.outputsInside _ (getD_mem hi' _), ?_⟩
    have hsize := pm.length_infer (pm.requestBlobs call.pools call.inputs s) (pm.outputNodeName i)
    have hfour : 4 ∣ pm.outputByteSize (pm.outputNodeName i) := by
      obtain ⟨node, x, hresult, hname, -⟩ :=
        result_of_output hpm hcarries hmodel hwrites heval hsuits hi'
      rw [← hresults] at hresult
      have hlength := (hinferred node hresult).length
      rw [hengine.float node hresult, ← hname, hsize] at hlength
      exact ⟨_, hlength⟩
    exact (@length_outputWritten_iff pm
      { s with outputBlobs := pm.infer (pm.requestBlobs call.pools call.inputs s) } call.outputs i
      hsize hfour (hsufficient i hi)).mpr (hsuits.small i hi')
  · intro i hi j hj
    exact hsuits.apart i (List.mem_range.mp hi) j (List.mem_range.mp hj)

/-- The outputs are copied from blobs that have a name. -/
theorem outputs_named (hpm : pm.PreparedFrom info device ng)
    (hcarries : (NgraphNetworkCreator.graphRun info device ng).state.Carries M info env)
    (hresults : function.results =
      (NgraphNetworkCreator.graphRun info device ng).state.mResultNodes)
    (hmodel : info.mModel.WellFormed) (hwrites : info.mModel.WritesOutputs)
    (heval : info.evaluate inputs = some env) (hengine : pm.Computes ng M format function)
    (hsuits : call.Suits pm s) :
    ∀ i ∈ List.range call.outputs.length, pm.outputNodeName i ≠ "" := by
  intro i hi
  obtain ⟨node, x, hresult, hname, -⟩ :=
    result_of_output hpm hcarries hmodel hwrites heval hsuits (List.mem_range.mp hi)
  rw [← hresults] at hresult
  exact hname ▸ hengine.named node (.inr hresult)

/-- **Delivery.**  A model has been prepared from the graph of the driver, and a call
for a request that suits it succeeds.  Then the buffers of the outputs hold the values
that the operations of the model give them. -/
theorem execution_delivers (hM : M.Documented) (hng : ng.Infers M) (hfeeds : M.Feeds inputs)
    (hdevice : device ≠ .vpu) (hmodel : info.mModel.WellFormed)
    (hwrites : info.mModel.WritesOutputs)
    (hsized : ∀ i ∈ info.getModelInputIndexes,
      NgraphNetworkCreator.zeroSized (info.getOperand i) = false)
    (hadmits : ∀ i ∈ info.getModelInputIndexes, info.Admits i (inputs i))
    (heval : info.evaluate inputs = some env)
    (hgraph : (NgraphNetworkCreator.construct info device).1.generateGraph
      (NgraphNetworkCreator.construct info device).2 ng = .ok (some function))
    (hpm : pm.PreparedFrom info device ng) (hengine : pm.Computes ng M format function)
    (hsuits : call.Suits pm s) (hprovides : call.Provides pm info format s inputs)
    (hsucceeds : Succeeds pm b call s) :
    ∀ k < call.outputs.length, ∃ node x, some node ∈ function.results ∧
      env (pm.outIndex k) = some x ∧
        (pm.conversions.clientOutput (pm.outputType k) (format node)).Holds
          ((call.outputs.getD k default).region call.pools
            (exec (executionAnswer pm b) call.program s).state.memory) x := by
  obtain ⟨hrun, -, hresults⟩ := generateGraph_eq_some hgraph
  have hcarries := graphRun_carries hM hng hfeeds hdevice hmodel hsized heval hrun
  obtain ⟨hend, hmemory⟩ := memory_of_succeeds hsucceeds
  have hcopies := @outputsEffect_completed pm b call.pools s.memory call.outputs
    (pm.infer (pm.requestBlobs call.pools call.inputs s)) call.scalarDims _
    s.mModelInfo.mOutputShapes
    (outputs_named hpm hcarries hresults hmodel hwrites heval hengine hsuits) hend
  rw [hmemory, requestEffect, hcopies.1]
  exact copied_outputs_hold hM hng hfeeds hdevice hmodel hwrites hsized hadmits heval hgraph hpm
    hengine hsuits hprovides hcopies.2

/-! ### The small model, executed -/

/-- The word of some bytes, the lowest first. -/
def wordOf (bytes : List UInt8) : Nat :=
  bytes.foldr (fun byte word => byte.toNat + 256 * word) 0

/-- Floats of 32 bits. -/
def floats : Format ℝ where
  size := 4
  StandsFor bytes v := FloatFormat.binary32.Finite (wordOf bytes) ∧
    v = (FloatFormat.binary32.value (wordOf bytes) : ℝ)

/-- The bytes of one and of two. -/
def oneBytes : List UInt8 := [0, 0, 128, 63]
def twoBytes : List UInt8 := [0, 0, 0, 64]

theorem floats_one : floats.StandsFor oneBytes 1 := by
  have hword : wordOf oneBytes = 0x3f800000 := by decide
  have hvalue : FloatFormat.binary32.value 0x3f800000 = 1 := by
    norm_num [FloatFormat.value, FloatFormat.binary32]
  have hfinite : FloatFormat.binary32.Finite 0x3f800000 := by
    unfold FloatFormat.Finite
    decide
  refine ⟨hword ▸ hfinite, ?_⟩
  rw [hword, hvalue]
  norm_num

theorem floats_two : floats.StandsFor twoBytes 2 := by
  have hword : wordOf twoBytes = 0x40000000 := by decide
  have hvalue : FloatFormat.binary32.value 0x40000000 = 2 := by
    norm_num [FloatFormat.value, FloatFormat.binary32]
  have hfinite : FloatFormat.binary32.Finite 0x40000000 := by
    unfold FloatFormat.Finite
    decide
  refine ⟨hword ▸ hfinite, ?_⟩
  rw [hword, hvalue]
  norm_num

/-- Two equal floats hold a pair of equal numbers. -/
theorem floats_hold_pair {bytes : List UInt8} {x : Tensor ℝ} {v : ℝ} (hbytes : bytes.length = 4)
    (hv : floats.StandsFor bytes v) (hshape : x.shape = [2])
    (hentries : ∀ index, Inside [2] index → x.get index = v) : floats.Holds (bytes ++ bytes) x := by
  have hsize : floats.size = 4 := rfl
  refine ⟨?_, fun index hin => ?_⟩
  · rw [List.length_append, hbytes, hshape]
    rfl
  · rw [hshape] at hin ⊢
    rw [hentries index hin, hsize]
    obtain ⟨hlow, hhigh⟩ := flat_bounds hin
    unfold element
    have hcases : (flat [2] index).toNat = 0 ∨ (flat [2] index).toNat = 1 := by
      have hprod : ((List.prod [2] : Nat) : Int) = 2 := rfl
      omega
    rcases hcases with h | h
    · rw [h, Nat.mul_zero, List.drop_zero, ← hbytes, List.take_left]
      exact hv
    · rw [h, Nat.mul_one, ← hbytes, List.drop_left, List.take_length]
      exact hv

/-- ngraph with names for the nodes of the small model. -/
noncomputable def doublingNgraph : Ngraph :=
  { Ngraph.ofMeaning (realReference pairOfOnes) with
    getName := fun
      | .mk (.parameter _ _ _) _ => "Parameter"
      | .mk .add _ => "Add"
      | _ => "Relu" }

/-- An engine that has loaded the small model, and doubles the ones it is given. -/
def doublingPreparedModel : BasePreparedModel where
  mModel := doublingModel
  getNodeName
    | 0 => some "Parameter"
    | 2 => some "Add"
    | 3 => some "Relu"
    | _ => none
  outputDims _ := [2]
  outputByteSize _ := 8
  infer _ _ := twoBytes ++ twoBytes
  length_infer _ _ := rfl
  conversions := unusedConversions

/-- A request with the ones in one memory and the output in another. -/
def doublingCall : ExecuteCall := .executeSynchronously true
  { inputs := [{ location := { poolIndex := 0, length := 8 } }]
    outputs := [{ location := { poolIndex := 1, length := 8 } }]
    pools :=
      [{ name := .ashmem, size := 8, object := 1 }, { name := .ashmem, size := 8, object := 2 }] }

def doublingStart : SharedState where
  inputBlobs _ := List.replicate 8 0
  outputBlobs _ := List.replicate 8 0
  memory
    | 1 => oneBytes ++ oneBytes
    | _ => List.replicate 8 0

theorem doublingPreparedModel_prepared :
    doublingPreparedModel.PreparedFrom doublingInfo .cpu doublingNgraph where
  model := rfl
  names i := by
    match i with
    | 0 | 1 | 2 | 3 => rfl
    | i + 4 => rfl

theorem doublingCall_succeeds :
    Succeeds doublingPreparedModel .permissive doublingCall doublingStart :=
  ⟨_, List.mem_cons_self, rfl⟩

theorem doublingCall_suits : doublingCall.Suits doublingPreparedModel doublingStart where
  inputs := rfl
  outputs := rfl
  inputsInside := by decide
  outputsInside := by decide
  fills := by decide
  apart := by decide
  small := by decide

theorem doublingCall_provides :
    doublingCall.Provides doublingPreparedModel doublingInfo (fun _ => floats) doublingStart
      pairOfOnes := by
  intro k hk param _
  obtain rfl : k = 0 := Nat.lt_one_iff.mp hk
  exact floats_hold_pair rfl floats_one rfl fun index hin => Tensor.get_ofFn hin

/-- The nodes of the small model's graph. -/
def doublingParameter : Node := .mk (.parameter 0 .f32 [2]) []

def doublingResult : Node :=
  .mk .relu [(.mk .add [(doublingParameter, 0), (doublingParameter, 0)], 0)]

/-- The function that is generated. -/
def doublingFunction : NgraphFunction where
  results := [some doublingResult]
  parameters := [doublingParameter]

theorem doublingFunction_generated :
    (NgraphNetworkCreator.construct doublingInfo .cpu).1.generateGraph
      (NgraphNetworkCreator.construct doublingInfo .cpu).2 doublingNgraph =
        .ok (some doublingFunction) := rfl

theorem doublingResult_denotes : doublingResult.denote (realReference pairOfOnes) 0 =
    ((pairOfOnes 0).map fun v => v + v).map fun v => max v 0 := by
  have hcomputable := (@realReference_documented pairOfOnes).toComputable
  have hparameter : doublingParameter.denote (realReference pairOfOnes) 0 = pairOfOnes 0 := rfl
  have hadd := hcomputable.pairwise .add .add rfl (pairOfOnes 0) (pairOfOnes 0)
    (definedOn_total_pair fun _ => .inl rfl)
  have hrelu := hcomputable.entrywise .relu .relu rfl
    (Tensor.broadcast (· + ·) (pairOfOnes 0) (pairOfOnes 0)) definedOn_total
  unfold doublingResult
  rw [Node.denote_mk_one, Node.denote_mk_two, hparameter, hadd]
  rw [← Tensor.broadcast_same (f := (· + ·))]
  exact hrelu

theorem doublingPreparedModel_computes : doublingPreparedModel.Computes doublingNgraph
    (realReference pairOfOnes) (fun _ => floats) doublingFunction where
  named node hnode := by
    rcases hnode with hnode | hnode
    · obtain rfl := List.mem_singleton.mp hnode
      decide
    · obtain rfl := Option.some.inj (List.mem_singleton.mp hnode)
      decide
  distinct param hparam other hother _ := by
    rw [List.mem_singleton.mp hparam, List.mem_singleton.mp hother]
  half _ _ := rfl
  float _ _ := rfl
  infers _ _ node hnode := by
    obtain rfl := Option.some.inj (List.mem_singleton.mp hnode)
    rw [doublingResult_denotes]
    refine floats_hold_pair rfl floats_two rfl fun index hin => ?_
    have hone : (pairOfOnes 0).get index = 1 := Tensor.get_ofFn hin
    have hsum : ((pairOfOnes 0).map fun v => v + v).get index = 1 + 1 := by
      rw [Tensor.get_map hin, hone]
    rw [Tensor.get_map hin, hsum]
    norm_num

/-- The client's second memory comes to hold what the model makes of its ones. -/
theorem doublingCall_delivers : ∃ node x, some node ∈ doublingFunction.results ∧
    doublingValues 3 = some x ∧
      floats.Holds ((doublingCall.outputs.getD 0 default).region doublingCall.pools
        (exec (executionAnswer doublingPreparedModel .permissive) doublingCall.program
          doublingStart).state.memory) x :=
  execution_delivers realReference_documented (fun _ => rfl) (fun _ _ _ => rfl)
    (show IntelDeviceType.cpu ≠ .vpu by decide) (by decide) (by decide) (by decide)
    (fun i hi => by
      obtain rfl := List.mem_singleton.mp hi
      exact ⟨rfl, .f32, rfl, fun _ _ => trivial⟩)
    doublingInfo_evaluate doublingFunction_generated doublingPreparedModel_prepared
    doublingPreparedModel_computes doublingCall_suits doublingCall_provides doublingCall_succeeds 0
    (by decide)

end Delivery

end NnHal
