import Gpt2Runtime.Lib.LittleEndian
import Gpt2Runtime.Layout
/-
# The checkpoint loader (`model.cpp:160-278`)

| here | there |
| --- | --- |
| `CheckpointFile`        | the bytes of a readable file; `tellg` is a nonnegative `streamoff`, so there are fewer than `2 ^ 63` |
| `header`                | `header[index]`, the little-endian `int32` words of the first 1024 bytes |
| `positiveDimension`     | the `positive_dimension` lambda (`model.cpp:220-225`) |
| `readConfig`            | the `ModelConfig` read from the header (`:227-236`) |
| `ModelWeights.make`     | the private constructor (`:171-182`) |
| `loadCheckpoint`        | `ModelWeights::load_checkpoint` (`:184-259`) |
| `ModelWeights.tensor`   | `ModelWeights::tensor` (`:273-278`) |
| `TensorView.get`        | `TensorView::operator[]` (`:167-172`) |
| `writeCheckpoint`       | `write_checkpoint` (`tests/gpt2_tests.cpp:77-102`), with an arbitrary payload |
-/

namespace Gpt2Runtime

open Loop Word LittleEndian

structure CheckpointFile where
  bytes : List UInt8
  size_lt : bytes.length < 2 ^ 63

/-- `static_cast<std::size_t>` of an `int32`: sign extension. -/
def castSize (x : Int32) : UInt64 := UInt64.ofNat (x.toInt % 2 ^ 64).toNat

def header (bytes : List UInt8) (index : Nat) : Int32 := Int32.ofBitVec (wordAt bytes (4 * index))

def positiveDimension (bytes : List UInt8) (index : Nat) (name : String) : Except Exc UInt64 := do
  throwIf (header bytes index ≤ 0) (.runtimeError ("invalid checkpoint dimension: " ++ name))
  pure (castSize (header bytes index))

/-- `header[1] == 1 ? config.vocabulary_size : positive_dimension(7, …)`. -/
def paddedVocabularySize (bytes : List UInt8) (vocabularySize : UInt64) : Except Exc UInt64 :=
  if header bytes 1 = 1 then .ok vocabularySize else positiveDimension bytes 7 "padded_vocabulary_size"

def readConfig (bytes : List UInt8) : Except Exc ModelConfig := do
  let maxSequenceLength ← positiveDimension bytes 2 "max_sequence_length"
  let vocabularySize ← positiveDimension bytes 3 "vocabulary_size"
  let numLayers ← positiveDimension bytes 4 "num_layers"
  let numHeads ← positiveDimension bytes 5 "num_heads"
  let channels ← positiveDimension bytes 6 "channels"
  let paddedVocabularySize ← paddedVocabularySize bytes vocabularySize
  let config : ModelConfig :=
    { maxSequenceLength, vocabularySize, paddedVocabularySize, numLayers, numHeads, channels }
  config.validate
  pure config

structure ModelWeights (α : Type) where
  config : ModelConfig
  checkpointVersion : Int32
  layout : ParameterLayout
  storage : List α

namespace ModelWeights

variable {α : Type}

def make (config : ModelConfig) (checkpointVersion : Int32) (layout : ParameterLayout) (storage : List α) :
    Except Exc (ModelWeights α) := do
  throwIf (storage.length ≠ layout.totalCount.toNat)
    (.invalidArgument "weight storage does not match parameter layout")
  pure { config, checkpointVersion, layout, storage }

def tensor (weights : ModelWeights α) (name : String) : Except Exc (TensorView α) := do
  let spec ← weights.layout.at? name
  let values ← subspan weights.storage spec.offset spec.count
  TensorView.make values spec.shape spec.rank

variable [Scalar α]

/-- The floats of the payload, which starts after the header. -/
def readPayload (bytes : List UInt8) (count : Nat) : List α :=
  (List.range count).map fun index => Scalar.ofBits (wordAt bytes (1024 + 4 * index))

def loadCheckpoint (file : CheckpointFile) : Except Exc (ModelWeights α) := do
  let bytes := file.bytes
  throwIf (bytes.length < 1024) (.runtimeError "checkpoint has a truncated header")
  throwIf (header bytes 0 ≠ 20240326) (.runtimeError "checkpoint has bad magic")
  throwIf (header bytes 1 ≠ 1 ∧ header bytes 1 ≠ 3)
    (.runtimeError ("unsupported checkpoint version: " ++ toString (header bytes 1).toInt))
  let config ← readConfig bytes
  let layout ← ParameterLayout.make config
  let payloadBytes ← checkedMultiply layout.totalCount 4 "checkpoint payload bytes"
  let expectedSize ← checkedAdd 1024 payloadBytes "checkpoint file size"
  throwIf (bytes.length < expectedSize.toNat) (.runtimeError "checkpoint has a truncated parameter payload")
  throwIf (expectedSize.toNat < bytes.length) (.runtimeError "checkpoint contains unexpected trailing data")
  throwIf (2 ^ 63 - 1 < payloadBytes.toNat) (.overflowError "checkpoint payload is too large for stream I/O")
  make config (header bytes 1) layout (readPayload bytes layout.totalCount.toNat)

end ModelWeights

def TensorView.get {α : Type} (view : TensorView α) (index : UInt64) : Except Exc α :=
  match view.values[index.toNat]? with
  | some x => .ok x
  | none => .error (.outOfRange "tensor view index is out of range")

/-- The header the tests write: ten words of fields and zeros up to 256. -/
def checkpointHeader (version : Int32) (config : ModelConfig) : List (BitVec 32) :=
  [(20240326 : Int32).toBitVec, version.toBitVec, BitVec.ofNat 32 config.maxSequenceLength.toNat,
    BitVec.ofNat 32 config.vocabularySize.toNat, BitVec.ofNat 32 config.numLayers.toNat,
    BitVec.ofNat 32 config.numHeads.toNat, BitVec.ofNat 32 config.channels.toNat,
    BitVec.ofNat 32 config.paddedVocabularySize.toNat] ++ List.replicate 248 0

def writeCheckpoint (version : Int32) (config : ModelConfig) (payload : List (BitVec 32)) : List UInt8 :=
  encodeWords (checkpointHeader version config ++ payload)

end Gpt2Runtime
