import Gpt2Runtime.CommandLine
import Gpt2Runtime.Generate
/-
# The benchmark (`app/gpt2_benchmark.cpp`)

| here | there |
| --- | --- |
| `Options`               | `Options` (`gpt2_benchmark.cpp:32-41`) |
| `setOption`, `parseFlag`, `parseArguments`, `parseOptions` | `parse_options` (`:101-142`); `none` is the exit of `--help` |
| `measure`               | `measure` (`:144-166`), without the clock; the reservation is up to the host |
| `validate`              | the checks of `main` and the capacity it uses (`:226-242`) |
| `sessionCreation`, `prefillPhase`, `singleDecode`, `fullGeneration`, `cachedGeneration` | the measurements of the same names (`:280-350`) |
| `projections`           | the two projection measurements (`:355-383`) |
| `run`                   | `main` after the model is loaded, without what it prints |

`latest_logits` is never read and is left out; the view `prefill` and `decode` return is the `logits` of the session.
-/

namespace Gpt2Runtime.Benchmark

open Loop Word CommandLine

structure Options where
  checkpoint : List Char := []
  tokens : List Int32 := [15496, 11, 616]
  generationTokens : UInt64 := 2
  warmup : UInt64 := 1
  repetitions : UInt64 := 5
  capacity : UInt64 := 0
  threads : UInt64 := 1
  skipFullPrefix : Bool := false

/-! ## The command line -/

/-- An argument that takes the next one as its value. -/
def setOption (options : Options) (argument : String) (value : List Char) : Option (Except Exc Options) :=
  if argument = "--checkpoint" then some (.ok { options with checkpoint := value })
  else if argument = "--tokens" then some do
    let tokens ← parseTokens value
    pure { options with tokens }
  else if argument = "--generation-tokens" then some do
    let generationTokens ← parseSize value "--generation-tokens"
    pure { options with generationTokens }
  else if argument = "--capacity" then some do
    let capacity ← parseSize value "--capacity"
    pure { options with capacity }
  else if argument = "--warmup" then some do
    let warmup ← parseSize value "--warmup"
    pure { options with warmup }
  else if argument = "--repetitions" then some do
    let repetitions ← parseSize value "--repetitions"
    pure { options with repetitions }
  else if argument = "--threads" then some do
    let threads ← parseSize value "--threads"
    pure { options with threads }
  else none

/-- An argument without a value. -/
def parseFlag (options : Options) (argument : String) : Except Exc (Option Options) :=
  if argument = "--skip-full-prefix" then .ok (some { options with skipFullPrefix := true })
  else if argument = "--help" then .ok none
  else .error (.invalidArgument ("unknown or incomplete argument: " ++ argument))

def parseArguments : Options → List String → Except Exc (Option Options)
  | options, [] => .ok (some options)
  | options, [argument] => parseFlag options argument
  | options, argument :: value :: rest =>
    match setOption options argument value.toList with
    | some set => do
      let options ← set
      parseArguments options rest
    | none => do
      match ← parseFlag options argument with
      | some options => parseArguments options (value :: rest)
      | none => .ok none

def checkOptions (options : Options) : Except Exc Unit := do
  throwIf (options.checkpoint = []) (.invalidArgument "--checkpoint is required")
  throwIf (options.generationTokens = 0) (.invalidArgument "--generation-tokens must be positive")
  throwIf (options.repetitions = 0) (.invalidArgument "--repetitions must be positive")
  throwIf (options.threads = 0) (.invalidArgument "--threads must be positive")

def parseOptions (arguments : List String) : Except Exc (Option Options) := do
  match ← parseArguments {} arguments with
  | some options =>
    checkOptions options
    pure (some options)
  | none => pure none

/-! ## The validation -/

def validateBenchmarkToken (config : ModelConfig) (token : Int32) : Except Exc Unit :=
  throwIf (token < 0 ∨ config.vocabularySize ≤ castSize token)
    (.invalidArgument "benchmark token is outside the real vocabulary")

/-- Returns the capacity. -/
def validate (options : Options) (config : ModelConfig) : Except Exc UInt64 := do
  let capacity := if options.capacity = 0 then config.maxSequenceLength else options.capacity
  throwIf (config.maxSequenceLength.toNat < options.tokens.length ∨
      config.maxSequenceLength - UInt64.ofNat options.tokens.length < options.generationTokens)
    (.invalidArgument "benchmark generation exceeds model context length")
  let consumedForGeneration := UInt64.ofNat options.tokens.length + options.generationTokens - 1
  throwIf (capacity < consumedForGeneration ∨ config.maxSequenceLength < capacity)
    (.invalidArgument "benchmark capacity cannot hold generation state")
  options.tokens.forM (validateBenchmarkToken config)
  pure capacity

/-! ## The measurements -/

/-- `setup(); operation();` `warmup` times and then `repetitions` times. -/
def measure {E σ : Type} (host : Host E) (warmup repetitions : UInt64) (setup operation : σ → Except Exc σ) (s : σ) :
    Except Exc σ := do
  let s ← forSize warmup.toNat s fun _ s => do
    let s ← setup s
    operation s
  host.reserve repetitions
  forSize repetitions.toNat s fun _ s => do
    let s ← setup s
    operation s

variable {α : Type} [Scalar α] {model : GPT2Model α} (host : Host (Executor α))

def sessionCreation (options : Options) (model : GPT2Model α) (capacity : UInt64) :
    Except Exc (Option (InferenceSession model)) :=
  measure host options.warmup options.repetitions (fun _ => .ok none)
    (fun _ => do
      let session ← InferenceSession.make model capacity
      pure (some session)) none

def prefillPhase (options : Options) (executor : Option (Executor α)) (session : InferenceSession model) :
    Except Exc (InferenceSession model) :=
  measure host options.warmup options.repetitions (fun session => .ok session.reset)
    (fun session => thrown (session.prefill options.tokens executor)) session

def singleDecode (options : Options) (executor : Option (Executor α)) (decodeInput : Int32)
    (session : InferenceSession model) : Except Exc (InferenceSession model) :=
  measure host options.warmup options.repetitions (fun session => thrown (session.reset.prefill options.tokens executor))
    (fun session => thrown (session.decode decodeInput executor)) session

structure FullGeneration (α : Type) where
  tokens : List Int32
  lastTokens : List Int32
  workspace : InferenceWorkspace α

def fullGenerationStep (model : GPT2Model α) (s : FullGeneration α) : Except Exc (FullGeneration α) := do
  let workspace ← thrown (model.forward s.tokens s.workspace)
  let real ← lastRealLogits model.weights.config workspace.logits
  pure { s with tokens := s.tokens ++ [greedyToken real], workspace }

def fullGeneration (options : Options) (model : GPT2Model α) : Except Exc (FullGeneration α) :=
  measure host options.warmup options.repetitions (fun s => .ok { s with tokens := options.tokens })
    (fun s => do
      let s ← forSize options.generationTokens.toNat s fun _ s => fullGenerationStep model s
      pure { s with lastTokens := s.tokens }) ⟨[], [], .empty⟩

/-- The recorded tokens of `full_generation`, unless it is skipped. -/
def fullPrefix (options : Options) (model : GPT2Model α) : Except Exc (Option (List Int32)) :=
  if options.skipFullPrefix then .ok none
  else do
    let s ← fullGeneration host options model
    pure (some s.lastTokens)

structure CachedGeneration (model : GPT2Model α) where
  tokens : List Int32
  lastTokens : List Int32
  session : InferenceSession model

/-- `if (step + 1 < generation_tokens) logits = session.decode(next, executor);` -/
def decodeNext (options : Options) (executor : Option (Executor α)) (step : UInt64) (next : Int32)
    (session : InferenceSession model) : Except Exc (InferenceSession model) :=
  if step + 1 < options.generationTokens then thrown (session.decode next executor) else .ok session

def cachedGenerationStep (options : Options) (executor : Option (Executor α)) (step : UInt64) (s : CachedGeneration model) :
    Except Exc (CachedGeneration model) := do
  let next := greedyToken s.session.logits
  let session ← decodeNext options executor step next s.session
  pure { s with tokens := s.tokens ++ [next], session }

def cachedGeneration (options : Options) (executor : Option (Executor α)) (session : InferenceSession model) :
    Except Exc (CachedGeneration model) :=
  measure host options.warmup options.repetitions (fun s => .ok { s with tokens := options.tokens, session := s.session.reset })
    (fun s => do
      let session ← thrown (s.session.prefill s.tokens executor)
      let s ← forSize options.generationTokens.toNat { s with session } fun step s =>
        cachedGenerationStep options executor step s
      pure { s with lastTokens := s.tokens }) ⟨[], [], session⟩

/-- What the measurements leave to the report. -/
structure Generations where
  full : Option (List Int32)
  cached : List Int32
deriving DecidableEq, Repr

/-- The four measurements on the session `main` keeps, and the check that the generations agree. -/
def generations (options : Options) (executor : Option (Executor α)) (session : InferenceSession model) :
    Except Exc Generations := do
  let session ← prefillPhase host options executor session
  let session ← thrown (session.reset.prefill options.tokens executor)
  let decodeInput := greedyToken session.logits
  let session ← singleDecode host options executor decodeInput session
  let full ← fullPrefix host options model
  let s ← cachedGeneration host options executor session
  throwIf (full ≠ none ∧ full ≠ some s.lastTokens) (.runtimeError "full and cached benchmark generation diverged")
  pure { full, cached := s.lastTokens }

/-- The two projections, of all prompt rows and of the last one. -/
def projections (options : Options) (model : GPT2Model α) : Except Exc (List α × List α) := do
  let config := model.weights.config
  let rows := UInt64.ofNat options.tokens.length
  let projectionInput : List α := (List.range (rows * config.channels).toNat).map fun index =>
    Scalar.ofSize (index % 17) * Scalar.ofBits 0x3C23D70A
  let wte ← model.weights.tensor "wte"
  let projectionWeight ← first wte.values (config.vocabularySize * config.channels)
  let projectionAll ← measure host options.warmup options.repetitions (fun output => .ok output)
    (fun output => Kernels.linear output projectionInput projectionWeight [] rows config.channels config.vocabularySize)
    (List.replicate (rows * config.vocabularySize).toNat (0 : α))
  let projectionLast ← measure host options.warmup options.repetitions (fun output => .ok output)
    (fun output => do
      let row ← last projectionInput config.channels
      Kernels.linear output row projectionWeight [] 1 config.channels config.vocabularySize)
    (List.replicate config.vocabularySize.toNat (0 : α))
  pure (projectionAll, projectionLast)

def run (options : Options) (model : GPT2Model α) : Except Exc Generations := do
  let executor ← makeExecutor host options.threads
  let capacity ← validate options model.weights.config
  let _ ← sessionCreation host options model capacity
  let session ← InferenceSession.make model capacity
  let generations ← generations host options executor session
  let _ ← projections host options model
  pure generations

end Gpt2Runtime.Benchmark
