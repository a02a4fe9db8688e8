import NnHal.RuntimeInfo

/-!
# Executing a request

An execution maps the pools of the request, copies the inputs into the blobs of
the infer request, infers, copies the output blobs into the pools, updates the
pools and reports.  Each of these phases is a command, and an execution is a
program of commands, so that the phases of two executions can be interleaved.

Outside the repository are the inference engine, the system calls and the
framework's checks.  What they do in one execution is a `Behaviour`: which pools
the system maps, whether `getBlob` and `infer` return.  What is inferred is a
function of the input blobs, kept with the prepared model.  Conversions between
floats and narrower elements are functions on their bytes.
-/

namespace NnHal

open Command

/-! ## The state -/

/-- The conversions of one element, on its bytes. -/
structure Conversions where
  widen : List UInt8 → List UInt8
  toUint8 : List UInt8 → List UInt8
  toInt8 : List UInt8 → List UInt8
  toFloat16 : List UInt8 → List UInt8
  toInt16 : List UInt8 → List UInt8
  toUInt16 : List UInt8 → List UInt8
  length_widen : ∀ element, (widen element).length = 4
  length_toUint8 : ∀ element, (toUint8 element).length = 1
  length_toInt8 : ∀ element, (toInt8 element).length = 1
  length_toFloat16 : ∀ element, (toFloat16 element).length = 2
  length_toInt16 : ∀ element, (toInt16 element).length = 2
  length_toUInt16 : ∀ element, (toUInt16 element).length = 2

/-- What stays the same in all executions of a prepared model.  The name of an
operand is that of its node; `getNodeName` follows a null pointer for one that has
neither a node nor a name yet.  The dimensions and the size of an output blob are
fixed when the network is loaded. -/
structure BasePreparedModel where
  mModel : Model
  getNodeName : Nat → Option String
  outputDims : String → List Nat
  outputByteSize : String → Nat
  infer : (String → List UInt8) → String → List UInt8
  length_infer : ∀ inputBlobs name, (infer inputBlobs name).length = outputByteSize name
  conversions : Conversions

/-- What the executions of a prepared model share: its runtime information, the
contents of the blobs of its infer request, the client's memory and the
mappings. -/
structure SharedState where
  mModelInfo : RuntimeInfo := {}
  inputBlobs : String → List UInt8
  outputBlobs : String → List UInt8
  memory : Nat → List UInt8
  mappings : Mappings := {}

/-- What one execution meets. -/
structure Behaviour where
  /-- the system maps the pool -/
  maps : Nat → Bool
  /-- `getBlob` returns for the input -/
  getsInput : Nat → Bool
  /-- `infer` returns -/
  infers : Bool
  /-- `getBlob` returns for the output -/
  getsOutput : Nat → Bool
  /-- `msync` of the pool succeeds -/
  syncs : Nat → Bool

/-- A system and an engine that never fail. -/
def Behaviour.permissive : Behaviour where
  maps _ := true
  getsInput _ := true
  infers := true
  getsOutput _ := true
  syncs _ := true

/-! ## The commands -/

/-- `V1_0::IExecutionCallback` hears the status only. -/
structure ExecutionNotification where
  status : ErrorStatus
  outputShapes : List OutputShape := []
  deriving DecidableEq, Repr

/-- What the copy of an output comes to. -/
inductive OutputCopy
  | skipped | mismatch | copied
  deriving DecidableEq, Repr

/-- The phases.  `scalarDims` is whether a blob without dimensions is reported
with one. -/
inductive ExecutionCmd
  | setRunTimePoolInfos (pools : List HidlMemory)
  | setRunTimeMemoryPools (pools : List MemoryPool)
  | copyInput (arguments : List RequestArgument) (i : Nat)
  | infer
  | copyOutput (scalarDims : Bool) (arguments : List RequestArgument) (i : Nat)
  | updateRequestPoolInfos
  | getOutputShapes
  | notify (n : ExecutionNotification)

abbrev ExecutionCmd.Answer : ExecutionCmd → Type
  | .setRunTimePoolInfos _ | .setRunTimeMemoryPools _ => ErrorStatus
  | .copyInput _ _ => Unit
  | .infer => Bool
  | .copyOutput _ _ _ => OutputCopy
  | .updateRequestPoolInfos => Bool
  | .getOutputShapes => List OutputShape
  | .notify _ => Unit

/-- A part of an execution with a result in `α`. -/
abbrev Execution := Prog ExecutionCmd ExecutionCmd.Answer

/-- How an execution ends without returning: an exception that nothing catches,
a failed assertion, a pointer that must not be followed, or a loop that never
ends.  What such a loop writes is not kept. -/
inductive ExecutionStop
  | exception | aborted | badPointer | diverges
  deriving DecidableEq, Repr

/-! ## The phases -/

/-- `memcpy` into a buffer of a fixed size. -/
def overwrite (dest src : List UInt8) : List UInt8 :=
  src.take dest.length ++ dest.drop src.length

/-- A copy into memory from an offset on. -/
def overwriteAt (mem : List UInt8) (offset : Nat) (src : List UInt8) : List UInt8 :=
  mem.take offset ++ overwrite (mem.drop offset) src

/-- The bytes of an element in the client's buffer; other types have four. -/
def OperandType.narrowing : OperandType → Nat
  | .tensorBool8 | .tensorQuant8Asymm | .tensorQuant8Symm | .tensorQuant8SymmPerChannel
  | .tensorQuant8AsymmSigned => 4
  | .tensorFloat16 | .tensorQuant16Symm | .tensorQuant16Asymm => 2
  | _ => 1

namespace Conversions

variable (conversions : Conversions)

/-- What an input copy writes into the blob. -/
def inputBytes (type : OperandType) (src : List UInt8) (len : Nat) : List UInt8 :=
  match type with
  | .tensorFloat16 =>
      (List.range (len / 2)).flatMap fun i => conversions.widen ((src.drop (2 * i)).take 2)
  | _ => src.take len

/-- What an output copy writes into the client's memory. -/
def outputBytes (type : OperandType) (src : List UInt8) : List UInt8 :=
  let elements := (List.range (src.length / 4)).map fun i => (src.drop (4 * i)).take 4
  match type with
  | .tensorBool8 | .tensorQuant8Asymm => elements.flatMap conversions.toUint8
  | .tensorQuant8Symm | .tensorQuant8SymmPerChannel | .tensorQuant8AsymmSigned =>
      elements.flatMap conversions.toInt8
  | .tensorFloat16 => elements.flatMap conversions.toFloat16
  | .tensorQuant16Symm => elements.flatMap conversions.toInt16
  | .tensorQuant16Asymm => elements.flatMap conversions.toUInt16
  | _ => src

end Conversions

namespace BasePreparedModel

variable (pm : BasePreparedModel)

/-- `getNodeName` returns for the operand. -/
def HasName (operand : Nat) : Prop := (pm.getNodeName operand).isSome = true

instance (operand : Nat) : Decidable (pm.HasName operand) := inferInstanceAs (Decidable (_ = _))

/-- The operand of a model output, its name and its type. -/
def outIndex (i : Nat) : Nat := pm.mModel.outputIndexes.getD i 0
def outputNodeName (i : Nat) : String := (pm.getNodeName (pm.outIndex i)).getD ""
def outputType (i : Nat) : OperandType := (pm.mModel.operand (pm.outIndex i)).type

/-- The same of a model input. -/
def inIndex (i : Nat) : Nat := pm.mModel.inputIndexes.getD i 0
def inputNodeName (i : Nat) : String := (pm.getNodeName (pm.inIndex i)).getD ""
def inputType (i : Nat) : OperandType := (pm.mModel.operand (pm.inIndex i)).type

/-- The length of an output in the client's buffer, computed in 32 bits. -/
def actualLength (i : Nat) : Nat :=
  pm.outputByteSize (pm.outputNodeName i) % 2 ^ 32 / (pm.outputType i).narrowing

/-- The copy of an output ends.  The conversions count their elements, of which
the blob has a 64-bit number, in 32 bits. -/
def ConversionEnds (i : Nat) : Prop :=
  (pm.outputType i).narrowing = 1 ∨ pm.outputByteSize (pm.outputNodeName i) / 4 < 2 ^ 32

instance (i : Nat) : Decidable (pm.ConversionEnds i) :=
  inferInstanceAs (Decidable (_ ∨ _))

/-- The dimensions recorded for an output. -/
def reportedDims (scalarDims : Bool) (i : Nat) : List Nat :=
  let dims := pm.outputDims (pm.outputNodeName i)
  if scalarDims ∧ dims = [] ∧ pm.actualLength i ≠ 0 then [1] else dims

end BasePreparedModel

namespace SharedState

variable (s : SharedState)

/-- The memory behind a pointer, from its offset on. -/
def follow (pointer : Pointer) : Except ExecutionStop (Nat × Nat) :=
  match pointer with
  | .at buffer offset =>
      match buffer.object with
      | some object => .ok (object, offset)
      | none => .error .badPointer
  | _ => .error .badPointer

/-- The input copy of one round of the loop over the inputs. -/
def copyInput (pm : BasePreparedModel) (b : Behaviour) (arguments : List RequestArgument)
    (i : Nat) : Except ExecutionStop (Unit × SharedState) :=
  match s.mModelInfo.getBlobFromMemoryPoolIn pm.mModel arguments i with
  | none => .error .aborted
  | some (srcPtr, len, mModelInfo) =>
      let s := { s with mModelInfo }
      if ¬ pm.HasName (pm.inIndex i) then .error .badPointer
      else if pm.inputNodeName i = "" then .ok ((), s)
      else if ¬ b.getsInput i then .error .exception
      else do
        let (object, offset) ← follow srcPtr
        let src := (s.memory object).drop offset
        let dest := overwrite (s.inputBlobs (pm.inputNodeName i))
          (pm.conversions.inputBytes (pm.inputType i) src len)
        pure ((), { s with inputBlobs := Function.update s.inputBlobs (pm.inputNodeName i) dest })

/-- `infer`; `false` when it throws. -/
def infer (pm : BasePreparedModel) (b : Behaviour) : Bool × SharedState :=
  if b.infers then (true, { s with outputBlobs := pm.infer s.inputBlobs }) else (false, s)

/-- The output copy of one round of the loop over the outputs. -/
def copyOutput (pm : BasePreparedModel) (b : Behaviour) (scalarDims : Bool)
    (arguments : List RequestArgument) (i : Nat) :
    Except ExecutionStop (OutputCopy × SharedState) :=
  if ¬ pm.HasName (pm.outIndex i) then .error .badPointer
  else if pm.outputNodeName i = "" then .ok (.skipped, s)
  else if ¬ b.getsOutput i then .error .exception
  else
    match s.mModelInfo.getBlobFromMemoryPoolOut pm.mModel arguments i with
    | none => .error .aborted
    | some (destPtr, expectedLength, mModelInfo) =>
        let sufficient := pm.actualLength i = expectedLength
        let (_, mModelInfo) :=
          mModelInfo.updateOutputshapes i (pm.reportedDims scalarDims i) sufficient
        let s := { s with mModelInfo }
        if ¬ sufficient then .ok (.mismatch, s)
        else if ¬ pm.ConversionEnds i then .error .diverges
        else do
          let (object, offset) ← follow destPtr
          let dest := overwriteAt (s.memory object) offset
            (pm.conversions.outputBytes (pm.outputType i) (s.outputBlobs (pm.outputNodeName i)))
          pure (.copied, { s with memory := Function.update s.memory object dest })

end SharedState

/-- The environment of an execution. -/
def executionAnswer (pm : BasePreparedModel) (b : Behaviour) :
    (c : ExecutionCmd) → SharedState → Except ExecutionStop (c.Answer × SharedState)
  | .setRunTimePoolInfos pools, s =>
      let (status, mModelInfo, mappings) :=
        s.mModelInfo.setRunTimePoolInfosFromHidlMemories b.maps pools s.mappings
      .ok (status, { s with mModelInfo, mappings })
  | .setRunTimeMemoryPools pools, s =>
      let (status, mModelInfo, mappings) :=
        s.mModelInfo.setRunTimePoolInfosFromMemoryPools b.maps pools s.mappings
      .ok (status, { s with mModelInfo, mappings })
  | .copyInput arguments i, s => s.copyInput pm b arguments i
  | .infer, s => .ok (s.infer pm b)
  | .copyOutput scalarDims arguments i, s => s.copyOutput pm b scalarDims arguments i
  | .updateRequestPoolInfos, s =>
      match s.mModelInfo.updateRequestPoolInfos b.syncs with
      | some updated => .ok (updated, s)
      | none => .error .badPointer
  | .getOutputShapes, s => .ok (s.mModelInfo.mOutputShapes, s)
  | .notify _, s => .ok ((), s)

/-! ## The three paths -/

namespace BasePreparedModel

/-- The program that issues one command. -/
abbrev issue (c : ExecutionCmd) : Execution c.Answer := Prog.perform c

/-- The loop over the inputs. -/
def copyInputs (arguments : List RequestArgument) : List Nat → Execution Unit
  | [] => pure ()
  | i :: is => do
      issue (.copyInput arguments i)
      copyInputs arguments is

/-- The loop over the outputs, left at the first length that does not match. -/
def copyOutputs (scalarDims : Bool) (arguments : List RequestArgument) :
    List Nat → Execution Bool
  | [] => pure true
  | i :: is => do
      let copy ← issue (.copyOutput scalarDims arguments i)
      if copy = .mismatch then pure false else copyOutputs scalarDims arguments is

/-- Where the common part of the three paths ends. -/
inductive PhasesEnd
  | unmapped (errorStatus : ErrorStatus)
  | notInferred
  | insufficient
  | completed (updated : Bool)

/-- The phases of an execution that follow the inference. -/
def outputPhases (scalarDims : Bool) (outputs : List RequestArgument) : Execution PhasesEnd := do
  let sufficient ← copyOutputs scalarDims outputs (List.range outputs.length)
  if ¬ sufficient then pure .insufficient
  else do
    let updated ← issue .updateRequestPoolInfos
    pure (.completed updated)

/-- The phases that follow the copies of the inputs. -/
def inferPhases (scalarDims : Bool) (outputs : List RequestArgument) : Execution PhasesEnd := do
  let inferred ← issue .infer
  if ¬ inferred then pure .notInferred else outputPhases scalarDims outputs

/-- The phases that follow the mapping of the pools. -/
def inputPhases (scalarDims : Bool) (inputs outputs : List RequestArgument) :
    Execution PhasesEnd := do
  copyInputs inputs (List.range inputs.length)
  inferPhases scalarDims outputs

/-- The phases of an execution up to the report; `mapPools` maps the pools. -/
def phases (scalarDims : Bool) (mapPools : Execution ErrorStatus)
    (inputs outputs : List RequestArgument) : Execution PhasesEnd := do
  let errorStatus ← mapPools
  if errorStatus ≠ .none then pure (.unmapped errorStatus)
  else inputPhases scalarDims inputs outputs

/-- The phases of `asyncExecute` and `executeSynchronouslyBase`. -/
def phases_1_0 (request : Request HidlMemory) : Execution PhasesEnd :=
  phases true (issue (.setRunTimePoolInfos request.pools)) request.inputs request.outputs

/-- The phases of `executeFenced`. -/
def phases_1_3 (request : Request MemoryPool) : Execution PhasesEnd :=
  phases false (issue (.setRunTimeMemoryPools request.pools)) request.inputs request.outputs

/-- `asyncExecute`. -/
def asyncExecute (request : Request HidlMemory) : Execution Unit := do
  match ← phases_1_0 request with
  | .unmapped _ | .notInferred => issue (.notify { status := .generalFailure })
  | .insufficient => do
      let outputShapes ← issue .getOutputShapes
      issue (.notify { status := .outputInsufficientSize, outputShapes })
  | .completed _ => do
      let outputShapes ← issue .getOutputShapes
      issue (.notify { status := .none, outputShapes })

/-- `executeSynchronouslyBase`. -/
def executeSynchronouslyBase (request : Request HidlMemory) :
    Execution (ErrorStatus × List OutputShape) := do
  match ← phases_1_0 request with
  | .unmapped _ | .notInferred | .completed false => pure (.generalFailure, [])
  | .insufficient => do
      let outputShapes ← issue .getOutputShapes
      pure (.outputInsufficientSize, outputShapes)
  | .completed true => do
      let outputShapes ← issue .getOutputShapes
      pure (.none, outputShapes)

/-- `executeBase` with a callback, together with the thread it starts; `valid`
is the answer of `validateRequest`. -/
def executeBase (valid : Bool) (request : Request HidlMemory) : Execution Unit :=
  if ¬ valid then issue (.notify { status := .invalidArgument })
  else asyncExecute request

def execute (valid : Bool) (request : Request HidlMemory) : Execution Unit :=
  executeBase valid request

def execute_1_2 (valid : Bool) (request : Request HidlMemory) : Execution Unit :=
  executeBase valid request

def execute_1_3 (valid : Bool) (request : Request MemoryPool) : Execution Unit :=
  executeBase valid request.convertToV1_0

def executeSynchronously (valid : Bool) (request : Request HidlMemory) : Execution Unit :=
  if ¬ valid then issue (.notify { status := .invalidArgument })
  else do
    let (status, outputShapes) ← executeSynchronouslyBase request
    issue (.notify { status, outputShapes })

def executeSynchronously_1_3 (valid : Bool) (request : Request MemoryPool) : Execution Unit :=
  executeSynchronously valid request.convertToV1_0

/-- A fence to wait for: a null handle, or one whose wait ends so. -/
inductive Fence
  | null | notSignaled | signaled
  deriving DecidableEq, Repr

/-- The loop over the fences: the status of the first that cannot be passed. -/
def waitFor : List Fence → ErrorStatus
  | [] => .none
  | .null :: _ => .invalidArgument
  | .notSignaled :: _ => .generalFailure
  | .signaled :: fences => waitFor fences

/-- `executeFenced`; `deadlinePassed` is the answer of `hasDeadlinePassed`. -/
def executeFenced (valid deadlinePassed : Bool) (fences : List Fence)
    (request : Request MemoryPool) : Execution Unit :=
  if ¬ valid then issue (.notify { status := .invalidArgument })
  else if deadlinePassed then issue (.notify { status := .missedDeadlinePersistent })
  else if waitFor fences ≠ .none then issue (.notify { status := waitFor fences })
  else do
    match ← phases_1_3 request with
    | .unmapped errorStatus => issue (.notify { status := errorStatus })
    | .notInferred => issue (.notify { status := .generalFailure })
    | .insufficient => issue (.notify { status := .outputInsufficientSize })
    | .completed _ => issue (.notify { status := .none })

end BasePreparedModel

end NnHal
