import Gpt2Runtime.Forward
/-
# The KV-cache session (`session.cpp`)

| here | there |
| --- | --- |
| `copyInto`              | `std::copy(values.begin(), values.end(), storage.begin() + offset)` |
| `KVCache`, `KVCache.make` | `KVCache` and its constructor (`session.cpp:41-56`) |
| `layerOffset`, `positionOffset`, `store`, `key`, `value`, `layerKeys`, `layerValues` | the members of the same names (`:74-117`) |
| `InferenceSession`, `InferenceSession.make` | `InferenceSession` and its constructor (`:119-137`) |
| `LinearOp`, `kernelLinear`, `invoke` | the `linear` lambda of `consume_token` (`:209-221`): the kernel, or the executor's `linear` |
| `Site`                  | the place of an invocation within a call; each is reached at most once |
| `consumeLayer`, `consumeToken` | `consume_token` and its layer loop (`:201-276`) |
| `validatePrefill`, `validateDecode` | the checks `prefill` and `decode` start with (`:149-160`, `:173-179`) |
| `prefill`, `decode`, `reset` | the members of the same names (`:146-187`); the returned view is the `logits` of the session |

The session borrows its model for its whole life, so the model is a parameter of its type. As in
`forward`, an exception leaves with the session as it is at the throw, and `store`'s with the cache.
-/

namespace Gpt2Runtime

open Loop Flat Word Kernels

variable {α : Type}

/-! ## The cache -/

structure KVCache (α : Type) where
  numLayers : UInt64
  capacity : UInt64
  channels : UInt64
  layerFloatCount : UInt64
  storageFloatCount : UInt64
  keys : List α
  values : List α

def copyInto (storage : List α) (offset : UInt64) (values : List α) : Except Exc (List α) :=
  if offset.toNat + values.length ≤ storage.length then
    .ok (storage.take offset.toNat ++ values ++ storage.drop (offset.toNat + values.length))
  else .error .undefined

namespace KVCache

def make [Zero α] (numLayers capacity channels : UInt64) : Except Exc (KVCache α) := do
  throwIf (numLayers = 0 ∨ capacity = 0 ∨ channels = 0) (.invalidArgument "KV cache dimensions must be positive")
  let layerFloatCount ← checkedMultiply capacity channels "KV cache layer size"
  let total ← checkedMultiply numLayers layerFloatCount "KV cache storage size"
  let storageFloatCount ← checkedMultiply 2 total "combined K/V float count"
  let _ ← checkedMultiply storageFloatCount 4 "combined K/V storage bytes"
  pure { numLayers, capacity, channels, layerFloatCount, storageFloatCount
         keys := List.replicate total.toNat 0, values := List.replicate total.toNat 0 }

def layerOffset (cache : KVCache α) (layer : UInt64) : Except Exc UInt64 := do
  throwIf (cache.numLayers ≤ layer) (.outOfRange "KV cache layer is out of range")
  pure (layer * cache.layerFloatCount)

def positionOffset (cache : KVCache α) (layer position : UInt64) : Except Exc UInt64 := do
  throwIf (cache.capacity ≤ position) (.outOfRange "KV cache position is out of range")
  let offset ← cache.layerOffset layer
  pure (offset + position * cache.channels)

def store (cache : KVCache α) (layer position : UInt64) (keyValues valueValues : List α) :
    Except (Exc × KVCache α) (KVCache α) := do
  keep cache (throwIf (keyValues.length ≠ cache.channels.toNat ∨ valueValues.length ≠ cache.channels.toNat)
    (.invalidArgument "KV cache write has the wrong channel count"))
  let offset ← keep cache (cache.positionOffset layer position)
  let keys ← keep cache (copyInto cache.keys offset keyValues)
  let cache := { cache with keys }
  let values ← keep cache (copyInto cache.values offset valueValues)
  pure { cache with values }

def key (cache : KVCache α) (layer position : UInt64) : Except Exc (List α) := do
  let offset ← cache.positionOffset layer position
  subspan cache.keys offset cache.channels

def value (cache : KVCache α) (layer position : UInt64) : Except Exc (List α) := do
  let offset ← cache.positionOffset layer position
  subspan cache.values offset cache.channels

def layerKeys (cache : KVCache α) (layer : UInt64) : Except Exc (List α) := do
  let offset ← cache.layerOffset layer
  subspan cache.keys offset cache.layerFloatCount

def layerValues (cache : KVCache α) (layer : UInt64) : Except Exc (List α) := do
  let offset ← cache.layerOffset layer
  subspan cache.values offset cache.layerFloatCount

end KVCache

/-! ## Linear operations -/

/-- The arguments of the `linear` lambda. -/
structure LinearArgs (α : Type) where
  output : List α
  input : List α
  weight : List α
  bias : List α
  inputCount : UInt64
  outputCount : UInt64

/-- A linear operation returns the new output, or throws leaving some output behind. -/
def LinearOp (α : Type) := LinearArgs α → Except (Exc × List α) (List α)

inductive Projection where
  | qkv
  | attproj
  | fc
  | fcproj
deriving DecidableEq, Repr

inductive Site where
  | layer (position layer : Nat) (projection : Projection)
  | vocabulary (position : Nat)
deriving DecidableEq, Repr

variable [Scalar α]

def kernelLinear : LinearOp α := fun args =>
  keep args.output (linear args.output args.input args.weight args.bias 1 args.inputCount args.outputCount)

/-- The `executor` argument of a call: what its `linear` does at each invocation. -/
def Executor (α : Type) := Site → LinearOp α

def invoke (executor : Option (Executor α)) (site : Site) (args : LinearArgs α) : Except (Exc × List α) (List α) :=
  match executor with
  | none => kernelLinear args
  | some executor => executor site args

/-- Put what a call leaves in its part of the state back there, on both exits. -/
def into {σ β : Type} (set : β → σ) : Except (Exc × β) β → Except (Exc × σ) σ
  | .ok out => .ok (set out)
  | .error (e, out) => .error (e, set out)

/-! ## The session -/

structure InferenceSession (model : GPT2Model α) where
  cache : KVCache α
  size : UInt64
  residual : List α
  normalized : List α
  qkv : List α
  attentionOutput : List α
  projected : List α
  mlpHidden : List α
  attentionScores : List α
  logits : List α

def validateSessionCapacity (model : GPT2Model α) (capacity : UInt64) : Except Exc UInt64 := do
  throwIf (capacity = 0 ∨ model.weights.config.maxSequenceLength < capacity)
    (.invalidArgument "session capacity is outside the model context length")
  pure capacity

namespace InferenceSession

variable {model : GPT2Model α}

def make (model : GPT2Model α) (capacity : UInt64) : Except Exc (InferenceSession model) := do
  let config := model.weights.config
  let validated ← validateSessionCapacity model capacity
  let cache ← KVCache.make config.numLayers validated config.channels
  let channels := config.channels
  let c3 ← checkedMultiply 3 channels "session qkv size"
  let c4 ← checkedMultiply 4 channels "session MLP size"
  pure { cache, size := 0
         residual := resizeVector [] channels
         normalized := resizeVector [] channels
         qkv := resizeVector [] c3
         attentionOutput := resizeVector [] channels
         projected := resizeVector [] channels
         mlpHidden := resizeVector [] c4
         attentionScores := resizeVector [] capacity
         logits := resizeVector [] config.vocabularySize }

def consumeLayer (executor : Option (Executor α)) (position c3 c4 layer : UInt64) (s : InferenceSession model) :
    Except (Exc × InferenceSession model) (InferenceSession model) := do
  let channels := model.weights.config.channels
  let w ← keep s (layerSpans model.weights layer channels c3 c4 "session layer offset")
  let normalized ← keep s (layerNorm s.normalized s.residual w.ln1w w.ln1b 1 channels)
  let s : InferenceSession model := { s with normalized }
  let s ← into (fun qkv => { s with qkv })
    (invoke executor (.layer position.toNat layer.toNat .qkv) ⟨s.qkv, s.normalized, w.qkvw, w.qkvb, channels, c3⟩)
  let keyValues ← keep s (subspan s.qkv channels channels)
  let valueValues ← keep s (subspan s.qkv (2 * channels) channels)
  let s ← into (fun cache => { s with cache }) (s.cache.store layer position keyValues valueValues)
  let query ← keep s (first s.qkv channels)
  let keys ← keep s (s.cache.layerKeys layer)
  let values ← keep s (s.cache.layerValues layer)
  let (attentionOutput, attentionScores) ← keep s (cachedSelfAttention s.attentionOutput query keys values
    s.attentionScores (position + 1) s.cache.capacity channels model.weights.config.numHeads)
  let s : InferenceSession model := { s with attentionOutput, attentionScores }
  let s ← into (fun projected => { s with projected }) (invoke executor
    (.layer position.toNat layer.toNat .attproj)
    ⟨s.projected, s.attentionOutput, w.attprojw, w.attprojb, channels, channels⟩)
  let residual ← keep s (addInPlace s.residual s.projected)
  let s : InferenceSession model := { s with residual }
  let normalized ← keep s (layerNorm s.normalized s.residual w.ln2w w.ln2b 1 channels)
  let s : InferenceSession model := { s with normalized }
  let s ← into (fun mlpHidden => { s with mlpHidden }) (invoke executor
    (.layer position.toNat layer.toNat .fc) ⟨s.mlpHidden, s.normalized, w.fcw, w.fcb, channels, c4⟩)
  let s : InferenceSession model := { s with mlpHidden := geluInPlace s.mlpHidden }
  let s ← into (fun projected => { s with projected }) (invoke executor
    (.layer position.toNat layer.toNat .fcproj) ⟨s.projected, s.mlpHidden, w.fcprojw, w.fcprojb, c4, channels⟩)
  let residual ← keep s (addInPlace s.residual s.projected)
  pure { s with residual }

/-- The embedding of one token. -/
def embedToken (residual wte wpe : List α) (token : Int32) (position channels : UInt64) : Except Exc (List α) :=
  forSize channels.toNat residual fun channel residual => do
    let a ← read wte (castSize token * channels + channel)
    let b ← read wpe (position * channels + channel)
    write residual channel (a + b)

def consumeToken (token : Int32) (position : UInt64) (executor : Option (Executor α)) (s : InferenceSession model) :
    Except (Exc × InferenceSession model) (InferenceSession model) := do
  let weights := model.weights
  let config := weights.config
  let channels := config.channels
  let c3 ← keep s (checkedMultiply 3 channels "session 3 * channels")
  let c4 ← keep s (checkedMultiply 4 channels "session 4 * channels")
  let wte ← keep s (weights.tensor "wte")
  let wpe ← keep s (weights.tensor "wpe")
  let residual ← keep s (embedToken s.residual wte.values wpe.values token position channels)
  let s : InferenceSession model := { s with residual }
  let s ← forSize config.numLayers.toNat s fun layer s => consumeLayer executor position c3 c4 layer s
  let lnfw ← keep s (weights.tensor "lnfw")
  let lnfb ← keep s (weights.tensor "lnfb")
  let normalized ← keep s (layerNorm s.normalized s.residual lnfw.values lnfb.values 1 channels)
  let s : InferenceSession model := { s with normalized }
  let vocabularyRows ← keep s (first wte.values (config.vocabularySize * channels))
  into (fun logits => { s with logits }) (invoke executor (.vocabulary position.toNat)
    ⟨s.logits, s.normalized, vocabularyRows, [], channels, config.vocabularySize⟩)

def validatePrefill (s : InferenceSession model) (prompt : List Int32) : Except Exc Unit := do
  throwIf (s.size ≠ 0) (.logicError "prefill requires an empty session")
  throwIf (prompt = []) (.invalidArgument "prefill prompt must not be empty")
  throwIf (s.cache.capacity.toNat < prompt.length) (.lengthError "prefill prompt exceeds session capacity")
  prompt.forM (validateToken model.weights.config)

def prefill (s : InferenceSession model) (prompt : List Int32) (executor : Option (Executor α)) :
    Except (Exc × InferenceSession model) (InferenceSession model) := do
  keep s (s.validatePrefill prompt)
  let s ← forSize prompt.length s fun position s => do
    let token ← keep s (read prompt position)
    consumeToken token position executor s
  pure { s with size := UInt64.ofNat prompt.length }

def validateDecode (s : InferenceSession model) (token : Int32) : Except Exc Unit := do
  throwIf (s.size = 0) (.logicError "decode requires a nonempty session")
  validateToken model.weights.config token
  throwIf (s.size = s.cache.capacity) (.lengthError "session KV cache is full")

def decode (s : InferenceSession model) (token : Int32) (executor : Option (Executor α)) :
    Except (Exc × InferenceSession model) (InferenceSession model) := do
  keep s (s.validateDecode token)
  let position := s.size
  let s ← consumeToken token position executor s
  pure { s with size := position + 1 }

def reset (s : InferenceSession model) : InferenceSession model := { s with size := 0 }

end InferenceSession

/-! ## Calls -/

/-- A call on a session, with the executor it passes. -/
inductive Call (α : Type) where
  | prefill (prompt : List Int32) (executor : Option (Executor α))
  | decode (token : Int32) (executor : Option (Executor α))
  | reset

namespace InferenceSession

variable {model : GPT2Model α}

/-- What a call returns (the logits view, empty for `reset`) and the session it leaves. -/
def step (s : InferenceSession model) : Call α → Except Exc (List α) × InferenceSession model
  | .prefill prompt executor =>
    match s.prefill prompt executor with
    | .ok s' => (.ok s'.logits, s')
    | .error (e, s') => (.error e, s')
  | .decode token executor =>
    match s.decode token executor with
    | .ok s' => (.ok s'.logits, s')
    | .error (e, s') => (.error e, s')
  | .reset => (.ok [], s.reset)

end InferenceSession

end Gpt2Runtime
