import Gpt2Runtime.Model
/-
# The full-prefix forward pass (`model.cpp:280-392`)

| here | there |
| --- | --- |
| `InferenceWorkspace`    | `InferenceWorkspace` (`model.hpp`) |
| `resizeVector`          | `std::vector<float>::resize`: old elements stay, new ones are zero; allocation succeeds |
| `resizeSteps`           | the checks of `InferenceWorkspace::resize` (`model.cpp:280-291`) and the eight buffers it resizes (`:293-300`) |
| `InferenceWorkspace.resize` | `InferenceWorkspace::resize` (`:280-302`) |
| `validateToken`         | the token check of `forward` (`:320-324`) and `validate_token` (`session.cpp:139-144`) |
| `validateTokens`        | the checks of `forward` before it touches the workspace (`:317-324`) |
| `embed`                 | the embedding loop (`:334-341`) |
| `forwardLayer`          | the body of the layer loop (`:346-379`) |
| `lastRealLogits`        | `logits.last(padded_vocabulary_size).first(vocabulary_size)`, as the callers of `forward` take it (`gpt2_generate.cpp:171-172`) |
| `forwardThrough`        | `GPT2Model::forward` stopped in its layer loop (`:314-379`): the passes before `count` are done |
| `forwardEnd`            | what it does behind the loop (`:381-391`) |
| `GPT2Model.forward`     | `GPT2Model::forward` (`:314-392`); the returned view is the `logits` of the workspace |

An exception leaves with the workspace as it is at the throw.
-/

namespace Gpt2Runtime

open Loop Flat Word Kernels

variable {α : Type}

structure InferenceWorkspace (α : Type) where
  sequenceLength : UInt64
  residual : List α
  normalized : List α
  qkv : List α
  attentionOutput : List α
  projected : List α
  mlpHidden : List α
  attentionScores : List α
  logits : List α

/-- A default-constructed workspace. -/
def InferenceWorkspace.empty : InferenceWorkspace α := ⟨0, [], [], [], [], [], [], [], []⟩

def validateToken (config : ModelConfig) (token : Int32) : Except Exc Unit :=
  throwIf (token < 0 ∨ config.vocabularySize ≤ castSize token)
    (.invalidArgument "input token ID is outside the real vocabulary")

def validateTokens (config : ModelConfig) (tokens : List Int32) : Except Exc Unit := do
  throwIf (tokens = [] ∨ config.maxSequenceLength.toNat < tokens.length)
    (.invalidArgument "token prefix length is out of range")
  tokens.forM (validateToken config)

variable [Scalar α]

def resizeVector (values : List α) (count : UInt64) : List α :=
  values.take count.toNat ++ List.replicate (count.toNat - values.length) 0

namespace InferenceWorkspace

/-- The `resize` calls of the buffers, in order, once the checks have passed. -/
def resizeSteps (config : ModelConfig) (sequenceLength : UInt64) :
    Except Exc (List (InferenceWorkspace α → InferenceWorkspace α)) := do
  config.validate
  throwIf (sequenceLength = 0 ∨ config.maxSequenceLength < sequenceLength)
    (.invalidArgument "workspace sequence length is out of range")
  let tokenChannels ← checkedMultiply sequenceLength config.channels "workspace token channels"
  let qkvCount ← checkedMultiply tokenChannels 3 "workspace qkv"
  let hiddenCount ← checkedMultiply tokenChannels 4 "workspace MLP hidden"
  let logitsCount ← checkedMultiply sequenceLength config.paddedVocabularySize "workspace logits"
  pure [fun w => { w with residual := resizeVector w.residual tokenChannels },
        fun w => { w with normalized := resizeVector w.normalized tokenChannels },
        fun w => { w with qkv := resizeVector w.qkv qkvCount },
        fun w => { w with attentionOutput := resizeVector w.attentionOutput tokenChannels },
        fun w => { w with projected := resizeVector w.projected tokenChannels },
        fun w => { w with mlpHidden := resizeVector w.mlpHidden hiddenCount },
        fun w => { w with attentionScores := resizeVector w.attentionScores sequenceLength },
        fun w => { w with logits := resizeVector w.logits logitsCount }]

def resize (workspace : InferenceWorkspace α) (config : ModelConfig) (sequenceLength : UInt64) :
    Except (Exc × InferenceWorkspace α) (InferenceWorkspace α) := do
  let steps ← keep workspace (resizeSteps config sequenceLength)
  let resized := steps.foldl (fun w step => step w) workspace
  pure { resized with sequenceLength }

end InferenceWorkspace

def embed (residual wte wpe : List α) (tokens : List Int32) (channels : UInt64) : Except Exc (List α) :=
  forSize tokens.length residual fun position residual => do
    let token ← read tokens position
    let tokenBase := castSize token * channels
    let positionBase := position * channels
    forSize channels.toNat residual fun channel residual => do
      let a ← read wte (tokenBase + channel)
      let b ← read wpe (positionBase + channel)
      write residual (positionBase + channel) (a + b)

def forwardLayer (weights : ModelWeights α) (rows channels c3 c4 layer : UInt64) (workspace : InferenceWorkspace α) :
    Except (Exc × InferenceWorkspace α) (InferenceWorkspace α) := do
  let w ← keep workspace (layerSpans weights layer channels c3 c4 "layer tensor offset")
  let normalized ← keep workspace
    (layerNorm workspace.normalized workspace.residual w.ln1w w.ln1b rows channels)
  let workspace := { workspace with normalized }
  let qkv ← keep workspace (linear workspace.qkv workspace.normalized w.qkvw w.qkvb rows channels c3)
  let workspace := { workspace with qkv }
  let (attentionOutput, attentionScores) ← keep workspace (causalSelfAttention workspace.attentionOutput workspace.qkv
    workspace.attentionScores rows channels weights.config.numHeads)
  let workspace := { workspace with attentionOutput, attentionScores }
  let projected ← keep workspace
    (linear workspace.projected workspace.attentionOutput w.attprojw w.attprojb rows channels channels)
  let workspace := { workspace with projected }
  let residual ← keep workspace (addInPlace workspace.residual workspace.projected)
  let workspace := { workspace with residual }
  let normalized ← keep workspace
    (layerNorm workspace.normalized workspace.residual w.ln2w w.ln2b rows channels)
  let workspace := { workspace with normalized }
  let mlpHidden ← keep workspace (linear workspace.mlpHidden workspace.normalized w.fcw w.fcb rows channels c4)
  let workspace := { workspace with mlpHidden := geluInPlace mlpHidden }
  let projected ← keep workspace
    (linear workspace.projected workspace.mlpHidden w.fcprojw w.fcprojb rows c4 channels)
  let workspace := { workspace with projected }
  let residual ← keep workspace (addInPlace workspace.residual workspace.projected)
  pure { workspace with residual }

/-- `forward` up to the end of the first `count` passes of its layer loop. -/
def GPT2Model.forwardThrough (model : GPT2Model α) (tokens : List Int32) (count : Nat) (workspace : InferenceWorkspace α) :
    Except (Exc × InferenceWorkspace α) (InferenceWorkspace α) := do
  let weights := model.weights
  let config := weights.config
  keep workspace (validateTokens config tokens)
  let rows := UInt64.ofNat tokens.length
  let workspace ← workspace.resize config rows
  let channels := config.channels
  let wte ← keep workspace (weights.tensor "wte")
  let wpe ← keep workspace (weights.tensor "wpe")
  let residual ← keep workspace (embed workspace.residual wte.values wpe.values tokens channels)
  let workspace := { workspace with residual }
  let c3 ← keep workspace (checkedMultiply 3 channels "forward 3 * channels")
  let c4 ← keep workspace (checkedMultiply 4 channels "forward 4 * channels")
  forSize count workspace fun layer workspace => forwardLayer weights rows channels c3 c4 layer workspace

/-- The rest of `forward`; `wte` is the tensor it took before the loop. -/
def GPT2Model.forwardEnd (model : GPT2Model α) (rows : UInt64) (workspace : InferenceWorkspace α) :
    Except (Exc × InferenceWorkspace α) (InferenceWorkspace α) := do
  let weights := model.weights
  let config := weights.config
  let wte ← keep workspace (weights.tensor "wte")
  let lnfw ← keep workspace (weights.tensor "lnfw")
  let lnfb ← keep workspace (weights.tensor "lnfb")
  let normalized ← keep workspace
    (layerNorm workspace.normalized workspace.residual lnfw.values lnfb.values rows config.channels)
  let workspace := { workspace with normalized }
  let logits ← keep workspace
    (linear workspace.logits workspace.normalized wte.values [] rows config.channels config.paddedVocabularySize)
  let workspace := { workspace with logits }
  keep workspace (throwIf (workspace.residual.length ≠ (rows * config.channels).toNat)
    (.logicError "workspace invariant failed after forward pass"))
  pure workspace

def GPT2Model.forward (model : GPT2Model α) (tokens : List Int32) (workspace : InferenceWorkspace α) :
    Except (Exc × InferenceWorkspace α) (InferenceWorkspace α) := do
  let workspace ← model.forwardThrough tokens model.weights.config.numLayers.toNat workspace
  model.forwardEnd (UInt64.ofNat tokens.length) workspace

def lastRealLogits (config : ModelConfig) (logits : List α) : Except Exc (List α) := do
  let row ← last logits config.paddedVocabularySize
  first row config.vocabularySize

end Gpt2Runtime
