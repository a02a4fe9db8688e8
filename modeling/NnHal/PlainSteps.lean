import NnHal.Reading

/-!
# Steps that neither pool nor go wrong

The helpers that fetch inputs and parameters, transpose and apply activations make no pooling
node, and none of them uses a vector past its end or a variable that was not assigned, or
divides by zero.
-/

namespace NnHal

open Command

/-- The command makes no pooling node, and is no use of a vector past its end or of a variable
that was not assigned, and no division by zero. -/
def Cmd.plain : Cmd → Prop
  | .make (.maxPool _) _ | .make (.avgPool _ _) _ => False
  | .fault .vectorIndex | .fault .uninitialized | .fault .divideByZero => False
  | _ => True

/-- Every command of the program is. -/
abbrev Plain {α : Type} (p : Gen α) : Prop := Only Cmd.plain p

section

set_option synthInstance.maxSize 4096

/-- Where an assertion fails the run ends. -/
instance plain_abort : Plain (issue .abort) := only_perform trivial

/-- An exception ends it too. -/
instance plain_throwException : Plain (issue .throwException) := only_perform trivial

/-- A read of a constant goes on. -/
instance plain_readOperand (operand : Nat) : Plain (issue (.readOperand operand)) :=
  only_perform trivial

/-- So does a read through a null buffer. -/
instance plain_nullConstant (operand : Nat) : Plain (issue (.nullConstant operand)) :=
  only_perform trivial

/-- And a lookup, whatever the entry is. -/
instance plain_getOperationOutput (index : Nat) : Plain (issue (.getOperationOutput index)) :=
  only_perform trivial

/-- ngraph answers for the node's type. -/
instance plain_getElementType (node : Node) : Plain (issue (.getElementType node)) :=
  only_perform trivial

/-- A constant is no pooling node. -/
instance plain_createConstNode (type : ElementType) (shape : List Nat) (vals : List Scalar) :
    Plain (createConstNode type shape vals) := only_perform trivial

/-- A check, for the faults that are allowed here. -/
theorem plain_faultIf (b : Bool) {f : Fault} (hf : (Cmd.fault f).plain) : Plain (faultIf b f) := by
  cases b with
  | true => exact only_perform hf
  | false => exact only_pure ()

/-- A size past the end of an operand's dimensions is not the `vectorIndex` of a local vector. -/
instance plain_dimAt (dims : List Nat) (i : Nat) : Plain (dimAt dims i) := by
  unfold dimAt
  split
  · infer_instance
  · exact .bind (only_perform trivial) fun _ => inferInstance

end

/-! ## The shared helpers -/

section

set_option synthInstance.maxSize 4096

variable {info : NnapiModelInfo} {self : OperationsBase}

/-- `nnAssert` goes on or ends the run. -/
instance plain_nnAssert (b : Bool) : Plain (nnAssert b) := by
  cases b with
  | true => exact only_pure ()
  | false => exact .bind plain_abort fun (never : Empty) => never.elim

/-- A pool index past the end is a fault of its own. -/
instance plain_getOperandMemory (index : Nat) : Plain (info.getOperandMemory index) := by
  refine .bind inferInstance fun _ => ?_
  dsimp only
  cases (info.getOperand index).lifetime with
  | constantReference =>
      dsimp only
      cases info.mPoolInfos[(info.getOperand index).location.poolIndex]? with
      | some buffer => infer_instance
      | none => exact .bind (only_perform trivial) fun _ => inferInstance
  | _ => dsimp only; infer_instance

/-- A scalar: a null buffer is one too. -/
instance plain_getConstOperand (T : CType) (index : Nat) :
    Plain (info.getConstOperand T index) := by
  refine .bind inferInstance fun memory => .bind inferInstance fun _ => ?_
  cases memory.1 with
  | some bytes => infer_instance
  | none => exact .bind (only_perform trivial) fun _ => inferInstance

/-- A vector: null is followed only where there is something to read. -/
instance plain_getConstVecOperand (T : CType) (index : Nat) :
    Plain (info.getConstVecOperand T index) := by
  refine .bind inferInstance fun memory => .bind inferInstance fun _ => ?_
  cases memory.1 with
  | some bytes => infer_instance
  | none => exact .bind (plain_faultIf _ trivial) fun _ => inferInstance

/-- A scalar input of the operation. -/
instance plain_parseOperationInput (T : CType) (index : Nat) :
    Plain (self.parseOperationInput T index) := plain_getConstOperand T _

/-- A vector input of the operation. -/
instance plain_getConstVecInput (T : CType) (index : Nat) :
    Plain (self.getConstVecInput T index) := plain_getConstVecOperand T _

/-- A transposition makes a constant and a node. -/
instance plain_transposeUnless (useNchw : Bool) (type : ConversionType) (node : Node) :
    Plain (transposeUnless useNchw type node) := by
  unfold transposeUnless transpose
  cases useNchw with
  | true => exact only_pure node
  | false => exact .bind (only_perform trivial) fun _ => only_perform trivial

/-- The three activations are a ReLU and two clamps. -/
instance plain_applyActivation (inputNode : Node) (activationFn : Int) :
    Plain (applyActivation inputNode activationFn) := by
  have hmake : ∀ op, (Cmd.make op [(inputNode : Output)]).plain →
      Plain (makeShared op [inputNode]) := fun _ => only_perform
  unfold applyActivation
  have hrelu := hmake .relu trivial
  have hone := hmake (.clamp (.int (-1)) (.int 1)) trivial
  have hsix := hmake (.clamp (.int 0) (.int 6)) trivial
  infer_instance

/-- The parameters of a channel. -/
instance plain_channelQuant (operand : Operand) :
    Plain (OperationsBase.channelQuant operand) := by
  unfold OperationsBase.channelQuant
  cases operand.channelQuant with
  | none => exact .bind plain_abort fun (never : Empty) => never.elim
  | some params => infer_instance

/-- The scales of the channels. -/
instance plain_channelScaleNode (operand : Operand) : Plain (self.channelScaleNode operand) := by
  refine .bind inferInstance fun params => .ite ?_ ?_
  · exact .bind inferInstance fun (never : Empty) => never.elim
  · exact .bind (plain_faultIf _ trivial) fun _ => inferInstance

/-- Dequantizing converts, subtracts and multiplies. -/
instance plain_dequantizeNode (input : Node) (index : Nat) (type : ElementType) :
    Plain (self.dequantizeNode input index type) := by
  have hmultiply : ∀ args, Plain (makeShared .multiply args) := fun _ => only_perform trivial
  have hsubtract : ∀ args, Plain (makeShared .subtract args) := fun _ => only_perform trivial
  have hconvert : ∀ type args, Plain (makeShared (.convert type) args) :=
    fun _ _ => only_perform trivial
  unfold OperationsBase.dequantizeNode
  infer_instance

/-- A constant, or the entry of the operand. -/
instance plain_getInputNode (input : Nat) (dequantize : Bool) :
    Plain (self.getInputNode input dequantize) := by
  unfold OperationsBase.getInputNode
  dsimp only
  cases (self.sModelInfo.getOperandType (self.inputIndex input)).constElement <;> infer_instance

/-- The layout, where the operation has the flag. -/
instance plain_useNchw (inputsSize index : Nat) : Plain (self.useNchw inputsSize index) := by
  unfold OperationsBase.useNchw
  infer_instance

end

end NnHal
