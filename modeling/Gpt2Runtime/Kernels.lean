import Gpt2Runtime.Basic
/-
# The scalar kernels (`kernels.cpp`)

| here | there |
| --- | --- |
| `requireSize`           | `require_size` (`kernels.cpp:17-29`) |
| `layerNorm`             | `layer_norm` (`:33-69`) |
| `linear`                | `linear` (`:71-96`) |
| `attendScores`, `attendExponentials`, `attendValues`, `attendHead` | the three source loops of one head, the same in both attention kernels but for the strides (`:117-147`, `:177-206`) |
| `causalSelfAttention`   | `causal_self_attention` (`:98-149`) |
| `cachedSelfAttention`   | `cached_self_attention` (`:151-208`) |
| `geluInPlace`           | `gelu_in_place` (`:210-216`) |
| `addInPlace`            | `add_in_place` (`:218-223`) |

An output span is passed in and its new contents are returned; a kernel that throws does so in its
entry checks, before it writes.
-/

namespace Gpt2Runtime.Kernels

open Loop Flat Word

variable {α : Type}

def requireSize (values : List α) (expected : UInt64) (name : String) : Except Exc Unit :=
  throwIf (values.length ≠ expected.toNat) (.invalidArgument (name ++ " has the wrong size"))

variable [Scalar α]

def layerNorm (output input weight bias : List α) (rows channels : UInt64) : Except Exc (List α) := do
  requireSize output (rows * channels) "layer_norm output"
  requireSize input (rows * channels) "layer_norm input"
  requireSize weight channels "layer_norm weight"
  requireSize bias channels "layer_norm bias"
  throwIf (channels = 0) (.invalidArgument "layer_norm channels must be positive")
  forSize rows.toNat output fun row output => do
    let base := row * channels
    let total ← forSize channels.toNat (0 : α) fun channel mean => do
      let x ← read input (base + channel)
      pure (mean + x)
    let mean := total / Scalar.ofSize channels.toNat
    let total ← forSize channels.toNat (0 : α) fun channel variance => do
      let x ← read input (base + channel)
      pure (variance + (x - mean) * (x - mean))
    let variance := total / Scalar.ofSize channels.toNat
    let reciprocalStddev := 1 / Scalar.sqrt (variance + Scalar.epsilon)
    forSize channels.toNat output fun channel output => do
      let x ← read input (base + channel)
      let normalized := reciprocalStddev * (x - mean)
      let w ← read weight channel
      let b ← read bias channel
      write output (base + channel) (normalized * w + b)

/-- `if (!bias.empty()) require_size(bias, …)`. -/
def requireBias (bias : List α) (outputChannels : UInt64) : Except Exc Unit :=
  if bias.isEmpty then .ok () else requireSize bias outputChannels "linear bias"

/-- `bias.empty() ? 0.0F : bias[out_channel]`. -/
def biasOrZero (bias : List α) (outChannel : UInt64) : Except Exc α :=
  if bias.isEmpty then .ok 0 else read bias outChannel

def linear (output input weight bias : List α) (rows inputChannels outputChannels : UInt64) :
    Except Exc (List α) := do
  requireSize output (rows * outputChannels) "linear output"
  requireSize input (rows * inputChannels) "linear input"
  requireSize weight (outputChannels * inputChannels) "linear weight"
  requireBias bias outputChannels
  forSize rows.toNat output fun row output =>
    forSize outputChannels.toNat output fun outChannel output => do
      let value ← biasOrZero bias outChannel
      let inputBase := row * inputChannels
      let weightBase := outChannel * inputChannels
      let value ← forSize inputChannels.toNat value fun inChannel value => do
        let x ← read input (inputBase + inChannel)
        let w ← read weight (weightBase + inChannel)
        pure (value + x * w)
      write output (row * outputChannels + outChannel) value

/-- The scores of the first `visible` sources, written to the scratch, and their maximum. -/
def attendScores (query keys scoreScratch : List α) (queryBase : UInt64) (keyBase : UInt64 → UInt64)
    (visible : Nat) (headSize : UInt64) (scale : α) : Except Exc (List α × α) :=
  forSize visible (scoreScratch, (Scalar.lowest : α)) fun source (scoreScratch, maximum) => do
    let total ← forSize headSize.toNat (0 : α) fun index score => do
      let q ← read query (queryBase + index)
      let k ← read keys (keyBase source + index)
      pure (score + q * k)
    let score := total * scale
    let scoreScratch ← write scoreScratch source score
    pure (scoreScratch, stdMax maximum score)

/-- The exponentials, over the scores in the scratch, and their sum. -/
def attendExponentials (scoreScratch : List α) (visible : Nat) (maximum : α) : Except Exc (List α × α) :=
  forSize visible (scoreScratch, (0 : α)) fun source (scoreScratch, exponentialSum) => do
    let score ← read scoreScratch source
    let value := Scalar.exp (score - maximum)
    let scoreScratch ← write scoreScratch source value
    pure (scoreScratch, exponentialSum + value)

/-- The weighted values, added to the output block. -/
def attendValues (output values scoreScratch : List α) (outputBase : UInt64) (valueBase : UInt64 → UInt64)
    (visible : Nat) (headSize : UInt64) (inverseSum : α) : Except Exc (List α) :=
  forSize visible output fun source output => do
    let value ← read scoreScratch source
    let probability := value * inverseSum
    forSize headSize.toNat output fun index output => do
      let o ← read output (outputBase + index)
      let v ← read values (valueBase source + index)
      write output (outputBase + index) (o + probability * v)

/-- One head of one query row over the first `visible` sources. `keyBase` and `valueBase` give the
first key and value index of a source; the result is the output and the score scratch. -/
def attendHead (output query keys values scoreScratch : List α) (queryBase outputBase : UInt64)
    (keyBase valueBase : UInt64 → UInt64) (visible : Nat) (headSize : UInt64) (scale : α) :
    Except Exc (List α × List α) := do
  let (scoreScratch, maximum) ← attendScores query keys scoreScratch queryBase keyBase visible headSize scale
  let (scoreScratch, exponentialSum) ← attendExponentials scoreScratch visible maximum
  let inverseSum := if Scalar.eq exponentialSum 0 then 0 else 1 / exponentialSum
  let output ← attendValues output values scoreScratch outputBase valueBase visible headSize inverseSum
  pure (output, scoreScratch)

/-- Returns the output and the score scratch. -/
def causalSelfAttention (output qkv scoreScratch : List α) (sequenceLength channels numHeads : UInt64) :
    Except Exc (List α × List α) := do
  requireSize output (sequenceLength * channels) "attention output"
  requireSize qkv (sequenceLength * 3 * channels) "attention qkv"
  requireSize scoreScratch sequenceLength "attention scratch"
  throwIf (numHeads = 0 ∨ channels = 0 ∨ channels % numHeads ≠ 0) (.invalidArgument "invalid attention dimensions")
  let headSize := channels / numHeads
  let scale := 1 / Scalar.sqrt (Scalar.ofSize headSize.toNat)
  let output := List.replicate output.length (0 : α)
  forSize sequenceLength.toNat (output, scoreScratch) fun position (output, scoreScratch) =>
    forSize numHeads.toNat (output, scoreScratch) fun head (output, scoreScratch) =>
      -- `source <= position` runs `position + 1` iterations
      attendHead output qkv qkv qkv scoreScratch
        (position * 3 * channels + head * headSize)
        (position * channels + head * headSize)
        (fun source => source * 3 * channels + channels + head * headSize)
        (fun source => source * 3 * channels + 2 * channels + head * headSize)
        (position.toNat + 1) headSize scale

/-- Returns the output and the score scratch. -/
def cachedSelfAttention (output query keyCache valueCache scoreScratch : List α)
    (visibleLength capacity channels numHeads : UInt64) : Except Exc (List α × List α) := do
  requireSize output channels "cached attention output"
  requireSize query channels "cached attention query"
  requireSize keyCache (capacity * channels) "cached attention keys"
  requireSize valueCache (capacity * channels) "cached attention values"
  requireSize scoreScratch capacity "cached attention scratch"
  throwIf (visibleLength = 0 ∨ capacity < visibleLength)
    (.invalidArgument "cached attention visible length is out of range")
  throwIf (numHeads = 0 ∨ channels = 0 ∨ channels % numHeads ≠ 0)
    (.invalidArgument "invalid cached attention dimensions")
  let headSize := channels / numHeads
  let scale := 1 / Scalar.sqrt (Scalar.ofSize headSize.toNat)
  let output := List.replicate output.length (0 : α)
  forSize numHeads.toNat (output, scoreScratch) fun head (output, scoreScratch) =>
    let headOffset := head * headSize
    attendHead output query keyCache valueCache scoreScratch headOffset headOffset
      (fun source => source * channels + headOffset) (fun source => source * channels + headOffset)
      visibleLength.toNat headSize scale

/-- The body of the `gelu_in_place` loop. -/
def geluScalar (value : α) : α :=
  let scaling := Scalar.sqrt (Scalar.twoOverPi : α)
  let cubeTerm := Scalar.geluCubic * value * value * value
  Scalar.half * value * (1 + Scalar.tanh (scaling * (value + cubeTerm)))

def geluInPlace (values : List α) : List α := values.map geluScalar

def addInPlace (destination source : List α) : Except Exc (List α) := do
  requireSize source (UInt64.ofNat destination.length) "add source"
  forSize destination.length destination fun index destination => do
    let d ← read destination index
    let s ← read source index
    write destination index (d + s)

end Gpt2Runtime.Kernels
