import NnHal.Runs
import NnHal.Tensors
import NnHal.Slicing
import NnHal.Matrices
import NnHal.Blocks
import NnHal.MatrixEntries
import NnHal.Quantization
import NnHal.FloatingWords
import NnHal.SameWindows
import NnHal.Convolving
import NnHal.CommandPrograms
import NnHal.ReadingRuns
import NnHal.Threads
import NnHal.Hal
import NnHal.NgraphNodes
import NnHal.ModelInfo
import NnHal.OperationsBase
import NnHal.ExplicitPadding
import NnHal.Denotations
import NnHal.Elements
import NnHal.QuantizedNodes
import NnHal.OperandAccess
import NnHal.Elementwise
import NnHal.Reductions
import NnHal.Reshaping
import NnHal.Resampling
import NnHal.Recurrent
import NnHal.LSTM
import NnHal.Convolution
import NnHal.NnapiConvolutions
import NnHal.ConvolutionMeanings
import NnHal.BlockGraphs
import NnHal.GroupedWindows
import NnHal.Layouts
import NnHal.LayoutLaw
import NnHal.Pooling
import NnHal.OperationsFactory
import NnHal.NgraphNetworkCreator
import NnHal.Reading
import NnHal.PlainSteps
import NnHal.Building
import NnHal.Statics
import NnHal.ValidationReads
import NnHal.SupportedOperations
import NnHal.GraphAccesses
import NnHal.BoundNodes
import NnHal.PresenceTests
import NnHal.ResultNodes
import NnHal.ConstantParameters
import NnHal.Divisions
import NnHal.DefinedOperations
import NnHal.Casting
import NnHal.MaskBits
import NnHal.HalfConversions
import NnHal.HalfRounding
import NnHal.HalfRoundTrips
import NnHal.TargetShapes
import NnHal.PoolingPaths
import NnHal.EmittedOperands
import NnHal.PerChannel
import NnHal.BiasScales
import NnHal.RecurrentLayers
import NnHal.SequenceRNN
import NnHal.ChainedRNN
import NnHal.BidirectionalRNN
import NnHal.CellArithmetic
import NnHal.MemoryCells
import NnHal.LSTMSteps
import NnHal.LSTMVariants
import NnHal.PrepareModel
import NnHal.RunTimePools
import NnHal.RuntimeInfo
import NnHal.Execution
import NnHal.ExecutionPhases
import NnHal.Delivery
import NnHal.PoolMappings
import NnHal.History
import NnHal.Interleavings
import NnHal.ThreePaths
import NnHal.OutputShapes
import NnHal.CopyBounds
import NnHal.LengthCheck
import NnHal.InferenceWaits
import NnHal.PreparedModelLifetime
import NnHal.InputParameters
import NnHal.EntrySelections
import NnHal.Environments
import NnHal.TensorBuffers
import NnHal.AxisReductions
import NnHal.NnapiOperations
import NnHal.NnapiShapes
import NnHal.NnapiLayers
import NnHal.NnapiModels
import NnHal.RealMeanings
import NnHal.Connections
import NnHal.EntrywiseMeanings
import NnHal.ReductionMeanings
import NnHal.ShapeMeanings
import NnHal.LayerMeanings
import NnHal.RealReference
import NnHal.GraphMeaning
import NnHal.OperationOrders
import NnHal.DeliveredValues
import NnHal.LosslessOperations
import NnHal.LosslessModels
import NnHal.NearestValues
import NnHal.ConcurrentDeliveries
import NnHal.GeneratedGraphs
