import Gpt2Runtime.SessionRuns
/-
# Greedy generation (`app/gpt2_generate.cpp`)

| here | there |
| --- | --- |
| `Options`               | the fields of `Options` generation reads (`gpt2_generate.cpp:29-37`); a dump is requested when its path is not empty |
| `maxElement`            | `std::max_element`: the first position no later element is greater than |
| `greedyToken`           | `greedy_token` (`:152-155`) |
| `StepLine`              | the line `print_step` writes (`:157-161`) |
| `dumpBinary`            | the values `dump_binary` writes (`:136-150`); opening and writing the file succeed |
| `generateFull`          | `generate_full` (`:163-186`) |
| `Host`                  | what the standard library and the system decide: whether a vector gets the memory it reserves, whether the threads start |
| `constructExecutor`     | the constructor of `LinearExecutor` (`linear_executor.cpp:16-30`); what the started executor does is a parameter |
| `makeExecutor`          | the executor the programs make (`gpt2_generate.cpp:201-204`, `gpt2_benchmark.cpp:221-224`, `gpt2_linear_benchmark.cpp:90-93`) |
| `generateCached`        | `generate_cached` (`:188-227`) |
| `checkContext`          | the check of `main` (`:237-240`) |

Of the allocations, the host decides on the reservations of the executor and of the timings; the buffers of the model,
the session and the workspaces are taken to be allocated.
-/

namespace Gpt2Runtime

open Loop Word

variable {α : Type}

structure Options where
  tokens : List Int32
  maxNewTokens : UInt64
  dumpLastLogits : Bool
  capacity : Option UInt64
  threads : UInt64

structure StepLine where
  step : UInt64
  prefixLength : UInt64
  token : Int32
deriving DecidableEq, Repr

/-- What a run leaves: the final token list, the step lines and the dumped values. -/
structure Output (α : Type) where
  tokens : List Int32
  steps : List StepLine
  dump : Option (List α)

def checkContext (options : Options) (config : ModelConfig) : Except Exc Unit :=
  throwIf (config.maxSequenceLength.toNat < options.tokens.length ∨
      config.maxSequenceLength - UInt64.ofNat options.tokens.length < options.maxNewTokens)
    (.invalidArgument "requested output exceeds the checkpoint context length")

def dumpBinary (values : List α) : Except Exc (List α) := do
  throwIf (2 ^ 63 - 1 < (UInt64.ofNat values.length * 4).toNat)
    (.overflowError "logits output is too large for stream I/O")
  pure values

/-- An exception leaving the function that owns the state it carries. -/
def thrown {σ β : Type} : Except (Exc × σ) β → Except Exc β
  | .ok b => .ok b
  | .error (e, _) => .error e

variable [Scalar α]

/-- The position of the largest element, `largest` at position `best` so far, the rest starting at `i`. -/
def maxElementFrom (best : Nat) (largest : α) : Nat → List α → Nat
  | _, [] => best
  | i, x :: xs => if Scalar.lt largest x then maxElementFrom i x (i + 1) xs else maxElementFrom best largest (i + 1) xs

def maxElement : List α → Nat
  | [] => 0
  | x :: xs => maxElementFrom 0 x 1 xs

def greedyToken (logits : List α) : Int32 := Int32.ofNat (maxElement logits)

/-! ## Full mode -/

structure FullState (α : Type) where
  tokens : List Int32
  steps : List StepLine
  workspace : InferenceWorkspace α

def fullStep (model : GPT2Model α) (step : UInt64) (s : FullState α) : Except Exc (FullState α) := do
  let workspace ← thrown (model.forward s.tokens s.workspace)
  let realVocabulary ← lastRealLogits model.weights.config workspace.logits
  let next := greedyToken realVocabulary
  let tokens := s.tokens ++ [next]
  pure { tokens, workspace, steps := s.steps ++ [⟨step + 1, UInt64.ofNat tokens.length - 1, next⟩] }

/-- `if (max_new_tokens == 0 || dump) logits = model.forward(tokens, workspace);` -/
def finalForward (options : Options) (model : GPT2Model α) (s : FullState α) : Except Exc (InferenceWorkspace α) :=
  if options.maxNewTokens = 0 ∨ options.dumpLastLogits = true then thrown (model.forward s.tokens s.workspace)
  else .ok s.workspace

def dumpFull (options : Options) (config : ModelConfig) (logits : List α) : Except Exc (Option (List α)) :=
  if options.dumpLastLogits = true then do
    let row ← last logits config.paddedVocabularySize
    let values ← dumpBinary row
    pure (some values)
  else .ok none

def generateFull (options : Options) (model : GPT2Model α) : Except Exc (Output α) := do
  let s ← forSize options.maxNewTokens.toNat ⟨options.tokens, [], .empty⟩ fun step s => fullStep model step s
  let workspace ← finalForward options model s
  let dump ← dumpFull options model.weights.config workspace.logits
  pure { tokens := s.tokens, steps := s.steps, dump }

/-! ## Cached mode -/

def requiredCapacity (options : Options) : UInt64 :=
  let generatedDecodeCount := if options.maxNewTokens = 0 then 0 else options.maxNewTokens - 1
  let dumpDecodeCount := if options.dumpLastLogits = true ∧ options.maxNewTokens ≠ 0 then 1 else 0
  UInt64.ofNat options.tokens.length + generatedDecodeCount + dumpDecodeCount

/-- What the program asks of the standard library and the system. -/
structure Host (E : Type) where
  /-- `reserve(count)` of a vector of threads or timings, 8 bytes each; a count is granted always or never. -/
  reserve : UInt64 → Except Exc Unit
  /-- The executor of so many threads with its workers running, or what the first that does not start throws. -/
  start : UInt64 → Except Exc E
  reserve_defined : ∀ count, reserve count ≠ .error .undefined
  start_defined : ∀ threads, start threads ≠ .error .undefined

section
variable {E : Type}

/-- A host that refuses nothing. -/
def Host.granting (start : UInt64 → E) : Host E where
  reserve _ := .ok ()
  start threads := .ok (start threads)
  reserve_defined _ h := nomatch h
  start_defined _ h := nomatch h

def constructExecutor (host : Host E) (totalThreads : UInt64) : Except Exc E := do
  throwIf (totalThreads = 0) (.invalidArgument "linear executor requires at least one total thread")
  host.reserve (totalThreads - 1)
  host.start totalThreads

def makeExecutor (host : Host E) (threads : UInt64) : Except Exc (Option E) :=
  if threads = 1 then .ok none
  else do
    let executor ← constructExecutor host threads
    pure (some executor)

end

structure CachedState (model : GPT2Model α) where
  tokens : List Int32
  steps : List StepLine
  session : InferenceSession model
  finalGenerated : Option Int32

variable {model : GPT2Model α}

/-- `if (step + 1 < max_new_tokens) logits = session.decode(next, executor);` -/
def decodeNext (options : Options) (executor : Option (Executor α)) (step : UInt64) (next : Int32)
    (session : InferenceSession model) : Except Exc (InferenceSession model) :=
  if step + 1 < options.maxNewTokens then thrown (session.decode next executor) else .ok session

def cachedStep (options : Options) (executor : Option (Executor α)) (step : UInt64) (s : CachedState model) :
    Except Exc (CachedState model) := do
  let next := greedyToken s.session.logits
  let tokens := s.tokens ++ [next]
  let session ← decodeNext options executor step next s.session
  pure { tokens, session, finalGenerated := some next
         steps := s.steps ++ [⟨step + 1, UInt64.ofNat tokens.length - 1, next⟩] }

/-- `if (final_generated.has_value()) logits = session.decode(*final_generated, executor);` -/
def decodeFinal (executor : Option (Executor α)) (s : CachedState model) : Except Exc (InferenceSession model) :=
  match s.finalGenerated with
  | some token => thrown (s.session.decode token executor)
  | none => .ok s.session

def dumpCached (options : Options) (executor : Option (Executor α)) (s : CachedState model) :
    Except Exc (Option (List α)) :=
  if options.dumpLastLogits = true then do
    let session ← decodeFinal executor s
    let values ← dumpBinary session.logits
    pure (some values)
  else .ok none

def generateCached (options : Options) (model : GPT2Model α) (host : Host (Executor α)) : Except Exc (Output α) := do
  let capacity := options.capacity.getD model.weights.config.maxSequenceLength
  throwIf (capacity < requiredCapacity options)
    (.invalidArgument "session capacity is too small for requested computation")
  let session ← InferenceSession.make model capacity
  let executor ← makeExecutor host options.threads
  let session ← thrown (session.prefill options.tokens executor)
  let s ← forSize options.maxNewTokens.toNat ⟨options.tokens, [], session, none⟩ fun step s =>
    cachedStep options executor step s
  let dump ← dumpCached options executor s
  pure { tokens := s.tokens, steps := s.steps, dump }

end Gpt2Runtime
