import NnHal.Reading

/-!
# What an operation does before it binds its outputs

The recurrent classes also remove the parameters of inputs they leave out.  A
program that binds no output and registers no result is building; whatever only
reads is.
-/

namespace NnHal

open Command

/-- The command neither binds an output nor registers a result. -/
def Cmd.builds : Cmd → Prop
  | .setOutputAtOperandIndex _ _ | .setResultNode _ _ => False
  | _ => True

/-- Every command of the program does. -/
abbrev Building {α : Type} (p : Gen α) : Prop := Only Cmd.builds p

/-- The command changes the table by removing a Parameter, if at all. -/
def Cmd.trims : Cmd → Prop
  | .removeInputNode _ => True
  | c => c.reads

/-- Every command of the program does. -/
abbrev Trimming {α : Type} (p : Gen α) : Prop := Only Cmd.trims p

/-- What only reads removes nothing. -/
theorem Cmd.reads.trims {c : Cmd} (h : c.reads) : c.trims := by
  cases c <;> trivial

/-- Removing a Parameter binds and registers nothing. -/
theorem Cmd.trims.builds {c : Cmd} (h : c.trims) : c.builds := by
  cases c <;> trivial

section

variable {α : Type} {self : OperationsBase}

/-- Reading is building. -/
theorem Reading.building {p : Gen α} (hp : Reading p) : Building p :=
  hp.mono fun _ hc => hc.trims.builds

/-- Reading removes nothing. -/
instance (priority := low) trimming_of_reading (p : Gen α) [hp : Reading p] : Trimming p :=
  hp.mono fun _ => Cmd.reads.trims

/-- Removing a Parameter binds nothing. -/
instance (priority := low) building_of_trimming (p : Gen α) [hp : Trimming p] : Building p :=
  hp.mono fun _ => Cmd.trims.builds

/-- The Parameter of an input goes, its entry stays. -/
instance trimming_removeInputNode (input : Nat) : Trimming (self.removeInputNode input) :=
  only_perform trivial

/-- `BIDIRECTIONAL_SEQUENCE_RNN` without an auxiliary input. -/
instance trimming_removeAux : Trimming (BidirectionalSequenceRNN.removeAux self) := by
  unfold BidirectionalSequenceRNN.removeAux
  infer_instance

/-- `LSTM` with a coupled input gate. -/
instance trimming_inputGateNode (m : LSTM.Modes) (index : Nat) :
    Trimming (LSTM.inputGateNode self m index) := by
  unfold LSTM.inputGateNode
  infer_instance

/-- The nodes of the four gates. -/
instance trimming_gateNodes (m : LSTM.Modes) (index : Nat) :
    Trimming (LSTM.gateNodes self m index) := by
  unfold LSTM.gateNodes
  infer_instance

end

end NnHal
