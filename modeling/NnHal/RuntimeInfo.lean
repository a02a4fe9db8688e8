import NnHal.RunTimePools
import NnHal.ModelInfo

/-!
# The runtime side of the model

What `NnapiModelInfo` keeps besides the model: the pools of the model and those
of the last request, a table of operands that each request overwrites, and the
shapes reported for the outputs.  All executions of a prepared model share it.
-/

namespace NnHal

/-- Where a pointer into a buffer points. -/
inductive Pointer
  | null
  | operandValues (offset : Nat)
  | at (buffer : Buffer) (offset : Nat)
  deriving DecidableEq, Repr

/-- `RunTimeOperandInfo`. -/
structure RunTimeOperandInfo where
  type : OperandType
  dimensions : List Nat
  scale : Nat
  zeroPoint : Int
  buffer : Pointer
  length : Nat
  lifetime : OperandLifeTime
  numberOfUsesLeft : Nat
  deriving DecidableEq, Repr

/-- `V1_2::OutputShape`. -/
structure OutputShape where
  dimensions : List Nat
  isSufficient : Bool
  deriving DecidableEq, Repr, Inhabited

/-- The update of one output's shape: the flag is always recorded; the
dimensions only where there are enough of them, no more than before, and as
32-bit numbers. -/
def OutputShape.update (outputShape : OutputShape) (outputDims : List Nat)
    (isLengthSufficient : Bool) : Bool × OutputShape :=
  if outputDims.length < outputShape.dimensions.length then
    (false, { outputShape with isSufficient := isLengthSufficient })
  else
    (true, { dimensions := (outputDims.take outputShape.dimensions.length).map (· % 2 ^ 32)
             isSufficient := isLengthSufficient })

/-- `V1_0::RequestArgument`. -/
structure RequestArgument where
  location : DataLocation
  dimensions : List Nat := []
  deriving DecidableEq, Repr, Inhabited

/-- `V1_3::Request::MemoryPool`. -/
inductive MemoryPool
  | hidlMemory (memory : HidlMemory)
  | token (token : Nat)
  deriving DecidableEq, Repr

/-- A request with its pools in the form of one HAL version. -/
structure Request (P : Type) where
  inputs : List RequestArgument
  outputs : List RequestArgument
  pools : List P
  deriving DecidableEq, Repr

/-- `convertToV1_0`: a token becomes an empty memory. -/
def MemoryPool.convertToV1_0 : MemoryPool → HidlMemory
  | .hidlMemory memory => memory
  | .token _ => {}

def Request.convertToV1_0 (request : Request MemoryPool) : Request HidlMemory :=
  { request with pools := request.pools.map MemoryPool.convertToV1_0 }

/-- The runtime members of `NnapiModelInfo`. -/
structure RuntimeInfo where
  mPoolInfos : List RunTimePoolInfo := []
  mOperands : List RunTimeOperandInfo := []
  mRequestPoolInfos : List RunTimePoolInfo := []
  mOutputShapes : List OutputShape := []
  deriving DecidableEq, Repr

/-! ## Mapping pools -/

/-- The loop that sets the entries from `i` on, up to the first that fails. -/
def setPools (maps : Nat → Bool) :
    Nat → List HidlMemory → List RunTimePoolInfo → Mappings →
      Bool × List RunTimePoolInfo × Mappings
  | _, [], poolInfos, os => (true, poolInfos, os)
  | i, pool :: pools, poolInfos, os =>
      let (mapped, poolInfo, os) := (poolInfos.getD i default).set pool (maps i) os
      let poolInfos := poolInfos.set i poolInfo
      if mapped then setPools maps (i + 1) pools poolInfos os
      else (false, poolInfos, os)

/-- The same loop for the pools of HAL 1.3, which refuses a token. -/
def setMemoryPools (maps : Nat → Bool) :
    Nat → List MemoryPool → List RunTimePoolInfo → Mappings →
      ErrorStatus × List RunTimePoolInfo × Mappings
  | _, [], poolInfos, os => (.none, poolInfos, os)
  | i, .hidlMemory pool :: pools, poolInfos, os =>
      let (mapped, poolInfo, os) := (poolInfos.getD i default).set pool (maps i) os
      let poolInfos := poolInfos.set i poolInfo
      if mapped then setMemoryPools maps (i + 1) pools poolInfos os
      else (.generalFailure, poolInfos, os)
  | _, .token _ :: _, poolInfos, os => (.invalidArgument, poolInfos, os)

namespace RuntimeInfo

variable (info : RuntimeInfo)

/-- `setRunTimePoolInfosFromHidlMemories` for the pools of HAL 1.0. -/
def setRunTimePoolInfosFromHidlMemories (maps : Nat → Bool) (pools : List HidlMemory)
    (os : Mappings) : ErrorStatus × RuntimeInfo × Mappings :=
  let (mapped, mRequestPoolInfos, os) :=
    setPools maps 0 pools (resize info.mRequestPoolInfos pools.length) os
  (if mapped then .none else .generalFailure, { info with mRequestPoolInfos }, os)

/-- `setRunTimePoolInfosFromHidlMemories` for the pools of HAL 1.3. -/
def setRunTimePoolInfosFromMemoryPools (maps : Nat → Bool) (pools : List MemoryPool)
    (os : Mappings) : ErrorStatus × RuntimeInfo × Mappings :=
  let (status, mRequestPoolInfos, os) :=
    setMemoryPools maps 0 pools (resize info.mRequestPoolInfos pools.length) os
  (status, { info with mRequestPoolInfos }, os)

/-- `unmapRuntimeMemPools`: the loop variable is a copy of the entry, so the
table keeps its buffers. -/
def unmapRuntimeMemPools (os : Mappings) : Mappings :=
  info.mRequestPoolInfos.foldl (fun os runtimeInfo => (runtimeInfo.unmap_mem os).2.2) os

end RuntimeInfo

/-! ## What a mapping leaves -/

/-- The entry of a pool that has been mapped. -/
structure RunTimePoolInfo.Maps (poolInfo : RunTimePoolInfo) (pool : HidlMemory) : Prop where
  hidlMemory : poolInfo.hidlMemory = pool
  object : poolInfo.buffer.object = some pool.object
  memory : pool.name = .ashmem → poolInfo.memory.isSome = true

/-- The table after all pools have been mapped. -/
def MappedTable (pools : List HidlMemory) (poolInfos : List RunTimePoolInfo) : Prop :=
  List.Forall₂ (fun pool poolInfo => poolInfo.Maps pool) pools poolInfos

/-- The pools are all of a kind the driver knows, and the system maps them. -/
def mapsAll (maps : Nat → Bool) : Nat → List HidlMemory → Bool
  | _, [] => true
  | i, pool :: pools => pool.mappable && maps i && mapsAll maps (i + 1) pools

theorem RunTimePoolInfo.set_fst (poolInfo : RunTimePoolInfo) (pool : HidlMemory) (maps : Bool)
    (os : Mappings) : (poolInfo.set pool maps os).1 = (pool.mappable && maps) := by
  unfold set HidlMemory.mappable
  cases pool.name <;> cases maps <;> rfl

theorem RunTimePoolInfo.set_maps (poolInfo : RunTimePoolInfo) {pool : HidlMemory} {maps : Bool}
    (os : Mappings) (h : (poolInfo.set pool maps os).1 = true) :
    (poolInfo.set pool maps os).2.1.Maps pool := by
  rw [set_fst, Bool.and_eq_true] at h
  rcases h with ⟨hname, rfl⟩
  unfold set
  cases hn : pool.name with
  | other name => simp [HidlMemory.mappable, hn] at hname
  | _ => constructor <;> simp [Mappings.mmap, Buffer.object, hn]

theorem setPools_fst (maps : Nat → Bool) (i : Nat) (pools : List HidlMemory)
    (poolInfos : List RunTimePoolInfo) (os : Mappings) :
    (setPools maps i pools poolInfos os).1 = mapsAll maps i pools := by
  induction pools generalizing i poolInfos os with
  | nil => rfl
  | cons pool pools ih =>
      have hset := RunTimePoolInfo.set_fst (poolInfos.getD i default) pool (maps i) os
      simp only [setPools, mapsAll]
      rw [← hset]
      cases ((poolInfos.getD i default).set pool (maps i) os).1 with
      | true => simpa using ih _ _ _
      | false => rfl

/-- The loop fills the entries from `i` on and keeps those before. -/
theorem setPools_mapped (maps : Nat → Bool) (pools : List HidlMemory)
    (front back : List RunTimePoolInfo) (hback : back.length = pools.length) (os : Mappings)
    (h : (setPools maps front.length pools (front ++ back) os).1 = true) :
    ∃ poolInfos, (setPools maps front.length pools (front ++ back) os).2.1 = front ++ poolInfos ∧
      MappedTable pools poolInfos := by
  induction pools generalizing front back os with
  | nil =>
      obtain rfl : back = [] := List.length_eq_zero_iff.mp hback
      exact ⟨[], rfl, .nil⟩
  | cons pool pools ih =>
      cases back with
      | nil => simp at hback
      | cons poolInfo back =>
          have hget : (front ++ poolInfo :: back).getD front.length default = poolInfo := by
            simp
          have hset : ∀ x, (front ++ poolInfo :: back).set front.length x =
              (front ++ [x]) ++ back := by
            intro x
            simp
          simp only [setPools, hget, hset] at h ⊢
          cases hmapped : (poolInfo.set pool (maps front.length) os).1 with
          | false => simp [hmapped] at h
          | true =>
              simp only [hmapped, if_true] at h ⊢
              have hlength : front.length + 1 =
                  (front ++ [(poolInfo.set pool (maps front.length) os).2.1]).length := by simp
              rw [hlength] at h ⊢
              obtain ⟨poolInfos, hinfos, htable⟩ := ih _ back (by simpa using hback) _ h
              refine ⟨_ :: poolInfos, ?_, .cons (poolInfo.set_maps os hmapped) htable⟩
              rw [hinfos]
              simp

/-- Where the pools of HAL 1.3 are all mapped, the two loops are the same. -/
theorem setMemoryPools_eq (maps : Nat → Bool) (i : Nat) (pools : List MemoryPool)
    (poolInfos : List RunTimePoolInfo) (os : Mappings) :
    let run := setMemoryPools maps i pools poolInfos os
    let converted := setPools maps i (pools.map MemoryPool.convertToV1_0) poolInfos os
    (run.1 = .none ↔ converted.1 = true) ∧ (run.1 = .none → run.2 = converted.2) := by
  induction pools generalizing i poolInfos os with
  | nil => exact ⟨by simp [setMemoryPools, setPools], fun _ => rfl⟩
  | cons pool pools ih =>
      cases pool with
      | token token =>
          have hfst : ((poolInfos.getD i default).set {} (maps i) os).1 = false :=
            RunTimePoolInfo.set_fst _ _ _ _
          simp only [setMemoryPools, List.map_cons, setPools, MemoryPool.convertToV1_0, hfst]
          simp
      | hidlMemory pool =>
          simp only [setMemoryPools, List.map_cons, setPools, MemoryPool.convertToV1_0]
          cases ((poolInfos.getD i default).set pool (maps i) os).1 with
          | false => simp
          | true => simpa using ih _ _ _

theorem setPools_table {maps : Nat → Bool} {pools : List HidlMemory} (v : List RunTimePoolInfo)
    (os : Mappings) (h : mapsAll maps 0 pools = true) :
    MappedTable pools (setPools maps 0 pools (resize v pools.length) os).2.1 := by
  obtain ⟨poolInfos, hinfos, htable⟩ := setPools_mapped maps pools [] (resize v pools.length)
    (length_resize _ _) os ((setPools_fst _ _ _ _ _).trans h)
  have hresult : (setPools maps 0 pools (resize v pools.length) os).2.1 = poolInfos := hinfos
  rwa [hresult]

namespace RuntimeInfo

variable (info : RuntimeInfo) (maps : Nat → Bool) (os : Mappings)

/-- Both ways to map the pools of a request succeed when `mapsAll` says so, and
then leave the table of the pools. -/
theorem setRunTimePoolInfosFromHidlMemories_mapped (pools : List HidlMemory) :
    let r := info.setRunTimePoolInfosFromHidlMemories maps pools os
    (r.1 = .none ↔ mapsAll maps 0 pools = true) ∧
      (r.1 = .none → MappedTable pools r.2.1.mRequestPoolInfos) := by
  have hstatus : (info.setRunTimePoolInfosFromHidlMemories maps pools os).1 = .none ↔
      mapsAll maps 0 pools = true := by
    rw [← setPools_fst maps 0 pools (resize info.mRequestPoolInfos pools.length) os]
    unfold setRunTimePoolInfosFromHidlMemories
    cases h : (setPools maps 0 pools (resize info.mRequestPoolInfos pools.length) os).1 <;>
      simp [h]
  exact ⟨hstatus, fun h => setPools_table _ os (hstatus.mp h)⟩

theorem setRunTimePoolInfosFromMemoryPools_mapped (pools : List MemoryPool) :
    let r := info.setRunTimePoolInfosFromMemoryPools maps pools os
    (r.1 = .none ↔ mapsAll maps 0 (pools.map MemoryPool.convertToV1_0) = true) ∧
      (r.1 = .none →
        MappedTable (pools.map MemoryPool.convertToV1_0) r.2.1.mRequestPoolInfos) := by
  obtain ⟨hsame, hresult⟩ :=
    setMemoryPools_eq maps 0 pools (resize info.mRequestPoolInfos pools.length) os
  have hstatus : (info.setRunTimePoolInfosFromMemoryPools maps pools os).1 = .none ↔
      mapsAll maps 0 (pools.map MemoryPool.convertToV1_0) = true := by
    rw [← setPools_fst maps 0 _ (resize info.mRequestPoolInfos pools.length) os]
    exact hsame
  refine ⟨hstatus, fun h => ?_⟩
  have htable := setPools_table info.mRequestPoolInfos os (hstatus.mp h)
  rw [List.length_map] at htable
  exact (congrArg (fun r => MappedTable _ r.1) (hresult h)).mpr htable

end RuntimeInfo

/-! ## Initialization -/

/-- How `initRuntimeInfo` fails. -/
inductive InitFailure
  | returnsFalse | aborted
  deriving DecidableEq, Repr

namespace RunTimeOperandInfo

/-- The type the runtime keeps for an operand: a float becomes a tensor of
floats, and a scalar must have no scale. -/
def runtimeType (operand : Operand) : Except InitFailure OperandType :=
  match operand.type with
  | .tensorFloat32 | .float32 => .ok .tensorFloat32
  | .int32 | .uint32 | .bool => if operand.scale = 0 then .ok operand.type else .error .aborted
  | .tensorInt32 | .tensorFloat16 | .tensorQuant16Symm | .tensorQuant16Asymm | .float16
  | .tensorBool8 | .tensorQuant8Asymm | .tensorQuant8AsymmSigned | .tensorQuant8Symm
  | .tensorQuant8SymmPerChannel => .ok operand.type
  | .subgraph | .oem => .error .returnsFalse

/-- One round of the loop of `initializeRunTimeOperandInfo`. -/
def ofOperand (mPoolInfos : List RunTimePoolInfo) (operand : Operand) :
    Except InitFailure RunTimeOperandInfo := do
  let type ← runtimeType operand
  let info : RunTimeOperandInfo :=
    { type, dimensions := operand.dimensions, scale := operand.scale,
      zeroPoint := operand.zeroPoint, buffer := .null, length := operand.location.length,
      lifetime := operand.lifetime, numberOfUsesLeft := 0 }
  match operand.lifetime with
  | .temporaryVariable =>
      pure { info with length := sizeOfData type operand.dimensions,
                       numberOfUsesLeft := operand.numberOfConsumers }
  | .constantCopy => pure { info with buffer := .operandValues operand.location.offset }
  | .constantReference =>
      match mPoolInfos[operand.location.poolIndex]? with
      | some r => pure { info with buffer := .at r.buffer operand.location.offset }
      | none => throw .aborted
  | .subgraphInput | .subgraphOutput | .noValue => pure info
  | .subgraph => throw .returnsFalse

end RunTimeOperandInfo

/-- The shapes reported before any execution. -/
def initialOutputShapes (model : Model) : List OutputShape :=
  model.outputIndexes.map fun operandIndex =>
    { dimensions := (model.operand operandIndex).dimensions, isSufficient := true }

namespace RuntimeInfo

variable (info : RuntimeInfo)

/-- `initializeRunTimeOperandInfo`. -/
def initializeRunTimeOperandInfo (model : Model) : Except InitFailure RuntimeInfo := do
  if model.operands = [] then throw .returnsFalse
  else do
    let mOperands ← model.operands.mapM (RunTimeOperandInfo.ofOperand info.mPoolInfos)
    pure { info with mOperands, mOutputShapes := initialOutputShapes model }

/-- `initRuntimeInfo`: the pools of the model are mapped and the operands
initialized.  The mappings stay when a later step fails. -/
def initRuntimeInfo (maps : Nat → Bool) (pools : List HidlMemory) (model : Model)
    (os : Mappings) : Except InitFailure RuntimeInfo × Mappings :=
  let (mapped, mPoolInfos, os) := setPools maps 0 pools (resize info.mPoolInfos pools.length) os
  if mapped then (initializeRunTimeOperandInfo { info with mPoolInfos } model, os)
  else (.error .returnsFalse, os)

/-! ## Shapes and arguments -/

/-- `updateOutputshapes`, with its result. -/
def updateOutputshapes (outputIndex : Nat) (outputDims : List Nat) (isLengthSufficient : Bool) :
    Bool × RuntimeInfo :=
  let outputShape := info.mOutputShapes.getD outputIndex default
  let (updated, outputShape) := outputShape.update outputDims isLengthSufficient
  (updated, { info with mOutputShapes := info.mOutputShapes.set outputIndex outputShape })

/-- The common body of `getBlobFromMemoryPoolIn` and `getBlobFromMemoryPoolOut`:
the operand is pointed at the argument.  `none` where the pool index fails the
assertion. -/
def pointOperandAt (operandIndex : Nat) (arg : RequestArgument) :
    Option (Pointer × Nat × RuntimeInfo) :=
  match info.mRequestPoolInfos[arg.location.poolIndex]? with
  | none => none
  | some r =>
      let pointer := Pointer.at r.buffer arg.location.offset
      let point := fun (operand : RunTimeOperandInfo) =>
        { operand with
          dimensions := if arg.dimensions.length > 0 then arg.dimensions else operand.dimensions
          buffer := pointer
          length := arg.location.length }
      some (pointer, arg.location.length,
        { info with mOperands := info.mOperands.modify operandIndex point })

/-- `getBlobFromMemoryPoolIn`, with the inputs of the request. -/
def getBlobFromMemoryPoolIn (model : Model) (inputs : List RequestArgument) (index : Nat) :
    Option (Pointer × Nat × RuntimeInfo) :=
  info.pointOperandAt (model.inputIndexes.getD index 0) (inputs.getD index default)

/-- `getBlobFromMemoryPoolOut`, with the outputs of the request. -/
def getBlobFromMemoryPoolOut (model : Model) (outputs : List RequestArgument) (index : Nat) :
    Option (Pointer × Nat × RuntimeInfo) :=
  info.pointOperandAt (model.outputIndexes.getD index 0) (outputs.getD index default)

/-- `updateRequestPoolInfos`: the results of the single updates are dropped.
`none` where a null pointer is followed. -/
def updateRequestPoolInfos (syncs : Nat → Bool) : Option Bool :=
  if (info.mRequestPoolInfos.mapIdx fun i runtimeInfo => runtimeInfo.update (syncs i)).all
      Option.isSome then some true
  else none

end RuntimeInfo

/-- The initialization of the operands keeps the tables of the pools. -/
theorem initializeRunTimeOperandInfo_frame {info info' : RuntimeInfo} {model : Model}
    (h : info.initializeRunTimeOperandInfo model = .ok info') :
    ∃ mOperands,
      info' = { info with mOperands, mOutputShapes := initialOutputShapes model } := by
  unfold RuntimeInfo.initializeRunTimeOperandInfo at h
  by_cases hempty : model.operands = []
  · rw [if_pos hempty] at h
    cases h
  · rw [if_neg hempty] at h
    cases hoperands : model.operands.mapM (RunTimeOperandInfo.ofOperand info.mPoolInfos) with
    | error e => simp [hoperands, bind, Except.bind] at h
    | ok mOperands =>
        rw [hoperands] at h
        exact ⟨mOperands, (Except.ok.inj h).symm⟩

end NnHal
