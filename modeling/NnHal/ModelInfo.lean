import NnHal.NgraphNodes

/-!
# Reading the model

`NnapiModelInfo` is the model a creator works on together with the pools that
`initRuntimeInfo` has mapped.  Before that call `mPoolInfos` is empty, and a
constant kept in a pool is looked up past the end of it.

A constant is read in two steps, as in the source: `getOperandMemory` finds
the buffer and its length, and `getConstFromBuffer` or `getConstVecFromBuffer`
checks the length and reads.  For an operand that is not constant the first
step returns no buffer but a plausible length, so the second one reads
through a null pointer.
-/

namespace NnHal

open Command

/-- The C++ types that operand values are read as. -/
inductive CType
  | int32 | uint32 | int16 | uint16 | int8 | uint8 | float32 | float16
  deriving DecidableEq, Repr

/-- `sizeof`. -/
def CType.size : CType → Nat
  | int32 | uint32 | float32 => 4
  | int16 | uint16 | float16 => 2
  | int8 | uint8 => 1

/-- The unsigned number a little-endian byte string stands for. -/
def littleEndian (bytes : List UInt8) : Nat :=
  bytes.foldr (fun b acc => b.toNat + 256 * acc) 0

/-- The value of an integer type; of a floating-point type, its bits. -/
def CType.decode (T : CType) (bytes : List UInt8) : Int :=
  let n := littleEndian (bytes.take T.size)
  match T with
  | int32 => (n : Int).bmod (2 ^ 32)
  | int16 => (n : Int).bmod (2 ^ 16)
  | int8 => (n : Int).bmod (2 ^ 8)
  | uint32 | uint16 | uint8 | float32 | float16 => n

/-- The number handed to ngraph for a value read as `T`. -/
def CType.scalar (T : CType) (v : Int) : Scalar :=
  match T with
  | float32 => .float32 v.toNat
  | float16 => .float16 v.toNat
  | _ => .int v

/-- `nnAssert`. -/
def nnAssert (b : Bool) : Gen Unit :=
  if b then pure () else do
    let never ← issue .abort
    nomatch never

/-- `NnapiModelInfo`: the model and the contents of the mapped pools. -/
structure NnapiModelInfo where
  mModel : Model
  mPoolInfos : List (List UInt8) := []

namespace NnapiModelInfo

variable (info : NnapiModelInfo)

def getModelInputIndexes : List Nat := info.mModel.inputIndexes

def getOperand (index : Nat) : Operand :=
  info.mModel.operands.getD index
    { type := .oem, lifetime := .noValue }

def getOperandLifetime (operandIdx : Nat) : OperandLifeTime :=
  (info.getOperand operandIdx).lifetime

def getOperandType (operandIdx : Nat) : OperandType :=
  (info.getOperand operandIdx).type

def isOperandLifeTimeConst (operandIdx : Nat) : Bool :=
  (info.getOperandLifetime operandIdx).isConst

/-- `getOperandScale`: the bits of the scale. -/
def getOperandScale (index : Nat) : Scalar :=
  .float32 (info.getOperand index).scale

def getOperandZeroPoint (index : Nat) : Scalar :=
  .int (info.getOperand index).zeroPoint

def getOperationsSize : Nat := info.mModel.operations.length

def getOperation (operationIndex : Nat) : Operation :=
  info.mModel.operations.getD operationIndex
    { type := .other 0, inputs := [], outputs := [] }

def getOperationInput (operationIndex inputIndex : Nat) : Nat :=
  (info.getOperation operationIndex).inputs.getD inputIndex 0

def getOperationOutput (operationIndex outputIndex : Nat) : Nat :=
  (info.getOperation operationIndex).outputs.getD outputIndex 0

def getOperationInputsSize (operationIndex : Nat) : Nat :=
  (info.getOperation operationIndex).inputs.length

def getOperationOutputsSize (operationIndex : Nat) : Nat :=
  (info.getOperation operationIndex).outputs.length

/-- `getOperationType`, whose argument one caller takes from the wrong table:
the index is not bounded there. -/
def getOperationType (index : Nat) : Gen OperationType :=
  match info.mModel.operations[index]? with
  | some operation => pure operation.type
  | none => do
      fault .vectorIndex
      pure (.other 0)

def isOmittedInput (operationIndex index : Nat) : Bool :=
  info.getOperandLifetime (info.getOperationInput operationIndex index) = .noValue

/-- `GetOperandMemory`: the bytes from the operand's location on, and the
length.  The buffer is `none` for the null pointer. -/
def getOperandMemory (index : Nat) : Gen (Option (List UInt8) × Nat) := do
  issue (.readOperand index)
  let op := info.getOperand index
  match op.lifetime with
  | .constantCopy =>
      nnAssert (op.location.poolIndex = 0)
      pure (some (info.mModel.operandValues.drop op.location.offset),
        op.location.length)
  | .constantReference =>
      match info.mPoolInfos[op.location.poolIndex]? with
      | some buffer => pure (some (buffer.drop op.location.offset), op.location.length)
      | none => do
          fault (.poolIndex op.location.poolIndex)
          pure (some [], op.location.length)
  | .temporaryVariable | .subgraphInput | .subgraphOutput | .noValue =>
      pure (none, sizeOfData op.type op.dimensions)
  | .subgraph =>
      nnAssert false
      pure (none, op.location.length)

/-- `GetConstFromBuffer<T>`. -/
def getConstFromBuffer (T : CType) (index : Nat) (buf : Option (List UInt8))
    (len : Nat) : Gen Int := do
  nnAssert (len = T.size)
  match buf with
  | some bytes => pure (T.decode bytes)
  | none => do
      fault (.nullBuffer index)
      pure 0

/-- `GetConstVecFromBuffer<T>`. -/
def getConstVecFromBuffer (T : CType) (index : Nat) (buf : Option (List UInt8))
    (len : Nat) : Gen (List Int) := do
  let n := len / T.size
  nnAssert (n * T.size = len)
  match buf with
  | some bytes => pure ((List.range n).map fun i => T.decode (bytes.drop (i * T.size)))
  | none => do
      faultIf (n ≠ 0) (.nullBuffer index)
      pure (List.replicate n 0)

/-- `GetConstOperand<T>`. -/
def getConstOperand (T : CType) (index : Nat) : Gen Int := do
  let (buf, len) ← info.getOperandMemory index
  getConstFromBuffer T index buf len

/-- `GetConstVecOperand<T>`. -/
def getConstVecOperand (T : CType) (index : Nat) : Gen (List Int) := do
  let (buf, len) ← info.getOperandMemory index
  getConstVecFromBuffer T index buf len

/-- `ParseOperationInput<T>`. -/
def parseOperationInput (T : CType) (operationIndex index : Nat) : Gen Int :=
  info.getConstOperand T (info.getOperationInput operationIndex index)

/-! ## What a read returns -/

/-- The bytes `getOperandMemory` finds. -/
def operandBuffer (index : Nat) : Option (List UInt8) :=
  let op := info.getOperand index
  match op.lifetime with
  | .constantCopy => some (info.mModel.operandValues.drop op.location.offset)
  | .constantReference =>
      some ((info.mPoolInfos.getD op.location.poolIndex []).drop op.location.offset)
  | _ => none

/-- The length `getOperandMemory` reports. -/
def operandLength (index : Nat) : Nat :=
  let op := info.getOperand index
  match op.lifetime with
  | .constantCopy | .constantReference | .subgraph => op.location.length
  | _ => sizeOfData op.type op.dimensions

/-- The value a scalar read returns. -/
def scalarValue (T : CType) (index : Nat) : Int :=
  ((info.operandBuffer index).map T.decode).getD 0

/-- The value a vector read returns. -/
def vectorValue (T : CType) (index : Nat) : List Int :=
  let n := info.operandLength index / T.size
  match info.operandBuffer index with
  | some bytes => (List.range n).map fun i => T.decode (bytes.drop (i * T.size))
  | none => List.replicate n 0

end NnapiModelInfo

theorem yields_nnAssert {b : Bool} : Yields (fun _ => b = true) (nnAssert b) := by
  unfold nnAssert
  split
  · assumption
  · exact fun never => nomatch never

namespace NnapiModelInfo

variable {info : NnapiModelInfo}

theorem yields_getOperandMemory (index : Nat) :
    Yields (fun m => m = (info.operandBuffer index, info.operandLength index))
      (info.getOperandMemory index) := by
  unfold getOperandMemory operandBuffer operandLength
  refine (yields_true _).bind fun _ _ => ?_
  cases hl : (info.getOperand index).lifetime <;> simp only [hl]
  case constantCopy => exact yields_nnAssert.bind fun _ _ => rfl
  case constantReference =>
    cases hp : info.mPoolInfos[(info.getOperand index).location.poolIndex]? with
    | none => exact (yields_true _).bind fun _ _ => by simp [hp, Yields]
    | some buffer => simp [hp, Yields]
  case subgraph => exact yields_nnAssert.bind fun _ h => nomatch h
  all_goals rfl

/-- A scalar read that returns returns `scalarValue`. -/
theorem yields_getConstOperand (T : CType) (index : Nat) :
    Yields (fun v => v = info.scalarValue T index) (info.getConstOperand T index) := by
  apply (yields_getOperandMemory index).bind
  intro m hm
  subst hm
  refine yields_nnAssert.bind fun _ _ => ?_
  unfold scalarValue
  cases info.operandBuffer index with
  | none => exact (yields_true _).bind fun _ _ => rfl
  | some bytes => rfl

/-- A vector read that returns returns `vectorValue`. -/
theorem yields_getConstVecOperand (T : CType) (index : Nat) :
    Yields (fun v => v = info.vectorValue T index) (info.getConstVecOperand T index) := by
  apply (yields_getOperandMemory index).bind
  intro m hm
  subst hm
  refine yields_nnAssert.bind fun _ _ => ?_
  unfold vectorValue
  cases info.operandBuffer index with
  | none => exact (yields_true _).bind fun _ _ => rfl
  | some bytes => rfl

end NnapiModelInfo

end NnHal
