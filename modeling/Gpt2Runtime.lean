import Gpt2Runtime.Lib.Loop
import Gpt2Runtime.Lib.Word
import Gpt2Runtime.Lib.Flat
import Gpt2Runtime.Lib.LittleEndian
import Gpt2Runtime.Lib.Refine
import Gpt2Runtime.Basic
import Gpt2Runtime.Kernels
import Gpt2Runtime.Gpt2
import Gpt2Runtime.KernelSpecs
import Gpt2Runtime.Layout
import Gpt2Runtime.Checkpoint
import Gpt2Runtime.CheckpointSpec
import Gpt2Runtime.Model
import Gpt2Runtime.Forward
import Gpt2Runtime.ForwardSpec
import Gpt2Runtime.Session
import Gpt2Runtime.CacheSpec
import Gpt2Runtime.SessionSpec
import Gpt2Runtime.SessionRefinement
import Gpt2Runtime.SessionRuns
import Gpt2Runtime.Padding
import Gpt2Runtime.Generate
import Gpt2Runtime.GenerateSpec
import Gpt2Runtime.Lib.Lts
import Gpt2Runtime.LinearExecutor
import Gpt2Runtime.Lib.Partition
import Gpt2Runtime.Shards
import Gpt2Runtime.SerialExecutor
import Gpt2Runtime.ExecutorRefinement
import Gpt2Runtime.ExecutorSteps
import Gpt2Runtime.ExecutorRealization
import Gpt2Runtime.ExecutorSubmissions
import Gpt2Runtime.ExecutorProgress
import Gpt2Runtime.Lib.Intervals
import Gpt2Runtime.LayoutSpec
import Gpt2Runtime.Lib.SlotMap
import Gpt2Runtime.CacheMap
import Gpt2Runtime.WorkspaceRuns
import Gpt2Runtime.KernelBounds
import Gpt2Runtime.ShardedLinear
import Gpt2Runtime.AttentionRows
import Gpt2Runtime.Lib.Softmax
import Gpt2Runtime.RealAttention
import Gpt2Runtime.CommandLine
import Gpt2Runtime.TokenList
import Gpt2Runtime.Benchmark
import Gpt2Runtime.BenchmarkSpec
import Gpt2Runtime.InferenceSafety
import Gpt2Runtime.CacheInvariant
import Gpt2Runtime.ExecutorTermination
import Gpt2Runtime.SpuriousWakeups
import Gpt2Runtime.SharedExecutor
import Gpt2Runtime.GenerateCommand
import Gpt2Runtime.GenerateMain
import Gpt2Runtime.ExecutorAccess
import Gpt2Runtime.SessionLaws
import Gpt2Runtime.BenchmarkCommand
import Gpt2Runtime.BenchmarkGenerate
import Gpt2Runtime.GenerateErrors
import Gpt2Runtime.BenchmarkErrors
import Gpt2Runtime.CompareLogits
import Gpt2Runtime.LinearBenchmark
import Gpt2Runtime.LogitsDumps
import Gpt2Runtime.InspectCommand
import Gpt2Runtime.ActivationBounds
import Gpt2Runtime.NetworkGauge
import Gpt2Runtime.CheckpointFormats
import Gpt2Runtime.FloatArithmetic
import Gpt2Runtime.RangeConditions
import Gpt2Runtime.FixedPoint
import Gpt2Runtime.OverflowFreedom
