import NnHal.OperationsFactory

/-!
# The network creator

A creator holds one object for every operation of its model, and the node
table they share.  The objects do not hold the model: each of their methods
reads it, and the device, from the static members of `OperationsBase`, which
every construction of a factory overwrites.  A method of the creator is
therefore a program that depends on the statics at the moment of the call.
-/

namespace NnHal

open Command

/-- The static members of `OperationsBase`. -/
structure Statics where
  sPluginType : IntelDeviceType
  sModelInfo : NnapiModelInfo

/-- An object of an operation class. -/
structure OperationNode where
  cls : OperationClass
  mNnapiOperationIndex : Nat
  mDefaultOutputIndex : Nat

namespace OperationNode

/-- What the object's methods see while the statics are these. -/
def base (node : OperationNode) (statics : Statics) : OperationsBase where
  sModelInfo := statics.sModelInfo
  sPluginType := statics.sPluginType
  mNnapiOperationIndex := node.mNnapiOperationIndex
  mDefaultOutputIndex := node.mDefaultOutputIndex

/-- `mOperationNodes[i] && mOperationNodes[i]->validateForPlugin()`. -/
def validateForPlugin (node : Option OperationNode) (statics : Statics) : Gen Bool :=
  match node with
  | some node => node.cls.validate (node.base statics)
  | none => pure false

/-- `connectOperationToGraph`. -/
def connectOperationToGraph (node : OperationNode) (statics : Statics) : Gen Unit :=
  node.cls.connectOperationToGraph (node.base statics)

end OperationNode

/-- `NgraphNetworkCreator`. -/
structure NgraphNetworkCreator where
  mModelInfo : NnapiModelInfo
  mOperationNodes : List (Option OperationNode)
  mNgraphNodes : NgraphNodes

/-- `OperationsFactory::OperationsFactory` overwrites the statics. -/
def OperationsFactory.statics (deviceType : IntelDeviceType) (modelInfo : NnapiModelInfo) :
    Statics where
  sPluginType := deviceType
  sModelInfo := modelInfo

namespace NgraphNetworkCreator

/-- The object for an operation; its constructor takes the default output from
the statics. -/
def operationNode (modelInfo : NnapiModelInfo) (statics : Statics) (index : Nat) :
    Option OperationNode :=
  (OperationsFactory.getOperation (modelInfo.getOperation index).type).map fun cls =>
    { cls, mNnapiOperationIndex := index
      mDefaultOutputIndex := statics.sModelInfo.getOperationOutput index 0 }

/-- The constructor: the creator and the statics it leaves. -/
def construct (modelInfo : NnapiModelInfo) (deviceType : IntelDeviceType) :
    NgraphNetworkCreator × Statics :=
  let statics := OperationsFactory.statics deviceType modelInfo
  ({ mModelInfo := modelInfo
     mOperationNodes :=
       (List.range modelInfo.getOperationsSize).map (operationNode modelInfo statics)
     mNgraphNodes := {} }, statics)

variable (creator : NgraphNetworkCreator) (statics : Statics)

def getSupportedOperations : Gen (List Bool) :=
  creator.mOperationNodes.mapM fun node => OperationNode.validateForPlugin node statics

/-- The loop of `validateOperations`, which ends at the first refusal. -/
def validateNodes (statics : Statics) : List (Option OperationNode) → Gen Bool
  | [] => pure true
  | node :: nodes => do
      let supported ← OperationNode.validateForPlugin node statics
      if supported then validateNodes statics nodes else pure false

def validateOperations : Gen Bool := validateNodes statics creator.mOperationNodes

/-- The element type of a model input; the switch has no case for the rest. -/
def parameterType : OperandType → Option ElementType
  | .float32 | .tensorFloat32 => some .f32
  | .int32 | .tensorInt32 => some .i32
  | .bool | .tensorBool8 => some .boolean
  | .tensorQuant8Asymm => some .u8
  | .tensorQuant8Symm | .tensorQuant8SymmPerChannel | .tensorQuant8AsymmSigned => some .i8
  | .tensorFloat16 => some .f16
  | .tensorQuant16Symm => some .i16
  | .tensorQuant16Asymm => some .u16
  | .uint32 | .float16 | .subgraph | .oem => none

/-- A model input without dimensions, or with a first dimension of zero. -/
def zeroSized (operand : Operand) : Bool :=
  match operand.dimensions with
  | [] => true
  | d :: _ => d = 0

/-- The loop of `createInputParams`: a zero-sized input gets a name and no
node, any other one a parameter. -/
def createInputParams (modelInfo : NnapiModelInfo) : List Nat → Gen Bool
  | [] => pure true
  | i :: inputs =>
      if zeroSized (modelInfo.getOperand i) then do
        issue (.setInvalidNode i)
        createInputParams modelInfo inputs
      else
        match parameterType (modelInfo.getOperand i).type with
        | none => pure false
        | some type => do
            let inputParam ←
              makeShared (.parameter i type (modelInfo.getOperand i).dimensions) []
            issue (.addInputParam inputParam)
            issue (.setOutputAtOperandIndex i (some inputParam))
            createInputParams modelInfo inputs

/-- The loop of `initializeModel` over the operations. -/
def connectNodes (statics : Statics) : List (Option OperationNode) → Gen Bool
  | [] => pure true
  | none :: _ => pure false
  | some node :: nodes => do
      node.connectOperationToGraph statics
      connectNodes statics nodes

def initializeModel : Gen Bool := do
  let created ← createInputParams creator.mModelInfo creator.mModelInfo.getModelInputIndexes
  if created then connectNodes statics creator.mOperationNodes else pure false

/-- `NgraphNodes::generateGraph`; an exception of ngraph leaves the null
pointer. -/
def functionOf (ng : Ngraph) (nodes : NgraphNodes) : Option NgraphFunction :=
  if ng.acceptsFunction nodes.mResultNodes nodes.mInputParams then
    some { results := nodes.mResultNodes, parameters := nodes.mInputParams }
  else none

/-- The run of `initializeModel` on the creator's node table. -/
def generateRun (ng : Ngraph) : Ran NgraphNodes Cmd Stop Bool :=
  exec (answer ng) (creator.initializeModel statics) creator.mNgraphNodes

/-- `generateGraph`: an exception on the way gives the null pointer, an abort
ends the process. -/
def generateGraph (ng : Ngraph) : Except Stop (Option NgraphFunction) :=
  let run := creator.generateRun statics ng
  match run.outcome with
  | .ok true => .ok (functionOf ng run.state)
  | .ok false | .error .exception => .ok none
  | .error .aborted => .error .aborted

/-- Every operation passes `validateForPlugin`. -/
def Accepts (ng : Ngraph) : Prop :=
  (exec (answer ng) (creator.validateOperations statics) creator.mNgraphNodes).outcome = .ok true

end NgraphNetworkCreator

end NnHal
