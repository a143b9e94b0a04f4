import Gpt2Runtime.CheckpointSpec
import Gpt2Runtime.KernelSpecs
/-
# A loaded model and the network it stores

| here | there |
| --- | --- |
| `layerSlice`            | `layer_slice` (`model.cpp:53-58`, `session.cpp:24-29`) |
| `LayerSpans`, `layerSpans` | the twelve slices each layer starts with (`model.cpp:350-364`, `session.cpp:233-247`) |
| `GPT2Model`             | `GPT2Model` (`model.hpp`); its weights come from `load_checkpoint`, the only public way to make them |

`GPT2Model.network` reads every weight at its row-major index in the tensor the layout declares for
its name. The `_ok` lemmas say that the spans the code takes hold exactly those functions.
-/

namespace Gpt2Runtime

open Loop Flat Word ParameterLayout

variable {α : Type}

def layerSlice (tensor : TensorView α) (layer perLayer : UInt64) (context : String) : Except Exc (List α) := do
  let offset ← checkedMultiply layer perLayer context
  subspan tensor.values offset perLayer

/-- `layer_slice(weights.tensor(name), layer, per_layer)`. -/
def layerTensor (weights : ModelWeights α) (name : String) (layer perLayer : UInt64) (context : String) :
    Except Exc (List α) := do
  let tensor ← weights.tensor name
  layerSlice tensor layer perLayer context

/-- The weights of one layer. -/
structure LayerSpans (α : Type) where
  ln1w : List α
  ln1b : List α
  qkvw : List α
  qkvb : List α
  attprojw : List α
  attprojb : List α
  ln2w : List α
  ln2b : List α
  fcw : List α
  fcb : List α
  fcprojw : List α
  fcprojb : List α

def layerSpans (weights : ModelWeights α) (layer channels c3 c4 : UInt64) (context : String) :
    Except Exc (LayerSpans α) := do
  let ln1w ← layerTensor weights "ln1w" layer channels context
  let ln1b ← layerTensor weights "ln1b" layer channels context
  let qkvw ← layerTensor weights "qkvw" layer (c3 * channels) context
  let qkvb ← layerTensor weights "qkvb" layer c3 context
  let attprojw ← layerTensor weights "attprojw" layer (channels * channels) context
  let attprojb ← layerTensor weights "attprojb" layer channels context
  let ln2w ← layerTensor weights "ln2w" layer channels context
  let ln2b ← layerTensor weights "ln2b" layer channels context
  let fcw ← layerTensor weights "fcw" layer (c4 * channels) context
  let fcb ← layerTensor weights "fcb" layer c4 context
  let fcprojw ← layerTensor weights "fcprojw" layer (channels * c4) context
  let fcprojb ← layerTensor weights "fcprojb" layer channels context
  pure { ln1w, ln1b, qkvw, qkvb, attprojw, attprojb, ln2w, ln2b, fcw, fcb, fcprojw, fcprojb }

structure GPT2Model (α : Type) [Scalar α] where
  weights : ModelWeights α
  loaded : ∃ file, ModelWeights.loadCheckpoint file = .ok weights

/-! ## The network a model stores -/

/-- The row-major position of an index tuple. -/
def rowMajor (shape index : List Nat) : Nat := (shape.zip index).foldl (fun acc p => acc * p.1 + p.2) 0

variable [Scalar α]

/-- The entry of a named tensor at an index tuple of its declared shape. -/
def ModelWeights.entry (weights : ModelWeights α) (name : String) (index : List Nat) : α :=
  match weights.tensor name with
  | .ok view => view.values.getD (rowMajor ((view.shape.take view.rank).map UInt64.toNat) index) 0
  | .error _ => 0

def GPT2Model.network (model : GPT2Model α) : Network α where
  layers := model.weights.config.numLayers.toNat
  heads := model.weights.config.numHeads.toNat
  channels := model.weights.config.channels.toNat
  wte v c := model.weights.entry "wte" [v, c]
  wpe t c := model.weights.entry "wpe" [t, c]
  layer l :=
    { ln1w := fun c => model.weights.entry "ln1w" [l, c]
      ln1b := fun c => model.weights.entry "ln1b" [l, c]
      qkvw := fun o i => model.weights.entry "qkvw" [l, o, i]
      qkvb := fun o => model.weights.entry "qkvb" [l, o]
      attprojw := fun o i => model.weights.entry "attprojw" [l, o, i]
      attprojb := fun o => model.weights.entry "attprojb" [l, o]
      ln2w := fun c => model.weights.entry "ln2w" [l, c]
      ln2b := fun c => model.weights.entry "ln2b" [l, c]
      fcw := fun o i => model.weights.entry "fcw" [l, o, i]
      fcb := fun o => model.weights.entry "fcb" [l, o]
      fcprojw := fun o i => model.weights.entry "fcprojw" [l, o, i]
      fcprojb := fun o => model.weights.entry "fcprojb" [l, o] }
  lnfw c := model.weights.entry "lnfw" [c]
  lnfb c := model.weights.entry "lnfb" [c]

theorem GPT2Model.wellFormed (model : GPT2Model α) : model.weights.WellFormed := by
  obtain ⟨file, hfile⟩ := model.loaded
  obtain ⟨hvalid, heq⟩ := (loadCheckpoint_ok_iff file _).1 hfile
  rw [heq]
  exact hvalid.wellFormed

namespace ModelWeights.WellFormed

variable {weights : ModelWeights α}

omit [Scalar α] in
/-- Every declared tensor is small enough for all the size computations on it. -/
theorem prod_lt (h : weights.WellFormed) {name : String} {dims : List Nat} (hmem : (name, dims) ∈ weights.config.shapes) :
    4 * dims.prod + 1024 < 2 ^ 63 := by
  obtain ⟨pre, post, hs⟩ := List.append_of_mem hmem
  obtain ⟨view, -, -, -, -, hle⟩ := h.tensor_ok hs
  have := h.fits
  rw [h.size] at hle
  omega

/-- A tensor holds the entries of its name at their row-major positions. -/
theorem tensor_get (h : weights.WellFormed) {name : String} {dims : List Nat}
    (hmem : (name, dims) ∈ weights.config.shapes) :
    ∃ view, weights.tensor name = .ok view ∧ view.values.length = dims.prod ∧
      ∀ index, rowMajor dims index < dims.prod →
        view.values[rowMajor dims index]? = some (weights.entry name index) := by
  obtain ⟨pre, post, hs⟩ := List.append_of_mem hmem
  obtain ⟨view, hview, -, hlen, hshape, -⟩ := h.tensor_ok hs
  refine ⟨view, hview, hlen, fun index hlt => ?_⟩
  simp only [entry, hview, hshape]
  rw [List.getD_eq_getElem?_getD, List.getElem?_eq_getElem (by omega), Option.getD_some]

/-- Where an entry is stored. -/
theorem storage_entry (h : weights.WellFormed) {pre post : List (String × List Nat)} {name : String} {dims index : List Nat}
    (hs : weights.config.shapes = pre ++ (name, dims) :: post) (hlt : rowMajor dims index < dims.prod) :
    weights.storage[shapeEntries pre + rowMajor dims index]? = some (weights.entry name index) := by
  obtain ⟨view, hview, hvalues, -⟩ := h.tensor_ok hs
  obtain ⟨view', hview', -, hget⟩ := h.tensor_get (show (name, dims) ∈ weights.config.shapes by rw [hs]; simp)
  obtain rfl := Except.ok.inj (hview.symm.trans hview')
  have hentry := hget index hlt
  rwa [hvalues, List.getElem?_take_of_lt hlt, List.getElem?_drop] at hentry

theorem tensor_vec (h : weights.WellFormed) {name : String} {n : Nat} (hmem : (name, [n]) ∈ weights.config.shapes) :
    ∃ view, weights.tensor name = .ok view ∧ IsVec view.values n (fun c => weights.entry name [c]) := by
  obtain ⟨view, hview, hlen, hget⟩ := h.tensor_get hmem
  refine ⟨view, hview, by simpa using hlen, fun c hc => ?_⟩
  have := hget [c] (by simpa [rowMajor] using hc)
  simpa [rowMajor] using this

theorem tensor_mat (h : weights.WellFormed) {name : String} {R C : Nat} (hmem : (name, [R, C]) ∈ weights.config.shapes) :
    ∃ view, weights.tensor name = .ok view ∧ IsMat view.values R C (fun r c => weights.entry name [r, c]) := by
  obtain ⟨view, hview, hlen, hget⟩ := h.tensor_get hmem
  refine ⟨view, hview, by simpa using hlen, fun r hr c hc => ?_⟩
  have := hget [r, c] (by simpa [rowMajor] using idx_lt hr hc)
  simpa [rowMajor] using this

/-- The slice of layer `l` starts at `l` times the entries of a layer. -/
theorem layerTensor_get (h : weights.WellFormed) {name : String} {L : Nat} {dims : List Nat}
    (hmem : (name, L :: dims) ∈ weights.config.shapes) {l : Nat} (hl : l < L) (hl64 : l < 2 ^ 64) {perLayer : UInt64}
    (hper : perLayer.toNat = dims.prod) (context : String) :
    ∃ span, layerTensor weights name (UInt64.ofNat l) perLayer context = .ok span ∧ span.length = dims.prod ∧
      ∀ i index, i < dims.prod → rowMajor (L :: dims) (l :: index) = l * dims.prod + i →
        span[i]? = some (weights.entry name (l :: index)) := by
  obtain ⟨view, hview, hlen, hget⟩ := h.tensor_get hmem
  have hfit := h.prod_lt hmem
  rw [List.prod_cons] at hlen hget hfit
  have hle := row_end_le (C := dims.prod) hl
  have hmul : (UInt64.ofNat l * perLayer).toNat = l * dims.prod := toNat_mul_eq (toNat_ofNat_of_lt hl64) hper (by omega)
  have hoff := checkedMultiply_of_lt (show (UInt64.ofNat l).toNat * perLayer.toNat < 2 ^ 64 by
    rw [toNat_ofNat_of_lt hl64, hper]; omega) context
  refine ⟨(view.values.drop (l * dims.prod)).take dims.prod, ?_, by rw [List.length_take, List.length_drop]; omega, ?_⟩
  · simp only [layerTensor, layerSlice, hview, hoff, ok_bind]
    rw [subspan_ok (by rw [hmul, hper]; omega), hmul, hper]
  · intro i index hi hrow
    rw [List.getElem?_take_of_lt hi, List.getElem?_drop, ← hrow]
    exact hget _ (by rw [hrow]; omega)

theorem layerTensor_vec (h : weights.WellFormed) {name : String} {L n l : Nat}
    (hmem : (name, [L, n]) ∈ weights.config.shapes) (hl : l < L) (hl64 : l < 2 ^ 64) {perLayer : UInt64}
    (hper : perLayer.toNat = n) (context : String) :
    ∃ span, layerTensor weights name (UInt64.ofNat l) perLayer context = .ok span ∧
      IsVec span n (fun c => weights.entry name [l, c]) := by
  obtain ⟨span, hspan, hlen, hget⟩ := h.layerTensor_get hmem hl hl64 (by simpa using hper) context
  simp only [List.prod_cons, List.prod_nil, Nat.mul_one] at hlen hget
  exact ⟨span, hspan, hlen, fun c hc => hget c [c] hc (by simp [rowMajor])⟩

theorem layerTensor_mat (h : weights.WellFormed) {name : String} {L R C l : Nat}
    (hmem : (name, [L, R, C]) ∈ weights.config.shapes) (hl : l < L) (hl64 : l < 2 ^ 64) {perLayer : UInt64}
    (hper : perLayer.toNat = R * C) (context : String) :
    ∃ span, layerTensor weights name (UInt64.ofNat l) perLayer context = .ok span ∧
      IsMat span R C (fun r c => weights.entry name [l, r, c]) := by
  obtain ⟨span, hspan, hlen, hget⟩ := h.layerTensor_get hmem hl hl64 (by simpa using hper) context
  simp only [List.prod_cons, List.prod_nil, Nat.mul_one] at hlen hget
  refine ⟨span, hspan, hlen, fun r hr c hc => hget _ [r, c] (idx_lt hr hc) ?_⟩
  simp only [rowMajor, List.zip_cons_cons, List.zip_nil_right, List.foldl_cons, List.foldl_nil]
  ring

end ModelWeights.WellFormed

/-- The model a written checkpoint loads into. -/
def GPT2Model.written (version : Int32) (config : ModelConfig) (payload : List (BitVec 32))
    (h : config.Writable version) (hlen : payload.length = parameterCount config)
    (hsize : 1024 + 4 * payload.length < 2 ^ 63) : GPT2Model α where
  weights := { config, checkpointVersion := version, layout := layoutOf config, storage := payload.map Scalar.ofBits }
  loaded := ⟨⟨writeCheckpoint version config payload, by rw [length_writeCheckpoint]; exact hsize⟩,
    loadCheckpoint_writeCheckpoint h hlen rfl⟩

/-- One layer, one head, one channel, two positions and two tokens. -/
def tinyConfig : ModelConfig := ⟨2, 2, 2, 1, 1, 1⟩

theorem tinyConfig_writable : tinyConfig.Writable 1 := by
  refine ⟨⟨?_, ?_, ?_, ?_, ?_, ?_, ?_⟩, .inl rfl, fun _ => rfl, ?_, ?_, ?_, ?_, ?_⟩ <;> decide

def tinyModel : GPT2Model Int :=
  .written 1 tinyConfig (List.replicate 31 1) tinyConfig_writable rfl (by decide)

/-- As small, but with two channels. -/
def pairConfig : ModelConfig := ⟨2, 2, 2, 1, 1, 2⟩

theorem pairConfig_writable : pairConfig.Writable 1 := by
  refine ⟨⟨?_, ?_, ?_, ?_, ?_, ?_, ?_⟩, .inl rfl, fun _ => rfl, ?_, ?_, ?_, ?_, ?_⟩ <;> decide

/-! ## The whole tensors -/

theorem GPT2Model.wte_ok (model : GPT2Model α) : ∃ view, model.weights.tensor "wte" = .ok view ∧
    IsMat view.values model.weights.config.paddedVocabularySize.toNat model.weights.config.channels.toNat
      model.network.wte :=
  model.wellFormed.tensor_mat (by simp [ModelConfig.shapes, tensorShapes])

theorem GPT2Model.wpe_ok (model : GPT2Model α) : ∃ view, model.weights.tensor "wpe" = .ok view ∧
    IsMat view.values model.weights.config.maxSequenceLength.toNat model.weights.config.channels.toNat
      model.network.wpe :=
  model.wellFormed.tensor_mat (by simp [ModelConfig.shapes, tensorShapes])

theorem GPT2Model.lnfw_ok (model : GPT2Model α) : ∃ view, model.weights.tensor "lnfw" = .ok view ∧
    IsVec view.values model.weights.config.channels.toNat model.network.lnfw :=
  model.wellFormed.tensor_vec (by simp [ModelConfig.shapes, tensorShapes])

theorem GPT2Model.lnfb_ok (model : GPT2Model α) : ∃ view, model.weights.tensor "lnfb" = .ok view ∧
    IsVec view.values model.weights.config.channels.toNat model.network.lnfb :=
  model.wellFormed.tensor_vec (by simp [ModelConfig.shapes, tensorShapes])

/-! ## The twelve slices of a layer -/

/-- The spans hold the weights of a layer with `C` channels. -/
structure LayerSpans.Holds (spans : LayerSpans α) (C : Nat) (w : LayerWeights α) : Prop where
  ln1w : IsVec spans.ln1w C w.ln1w
  ln1b : IsVec spans.ln1b C w.ln1b
  qkvw : IsMat spans.qkvw (3 * C) C w.qkvw
  qkvb : IsVec spans.qkvb (3 * C) w.qkvb
  attprojw : IsMat spans.attprojw C C w.attprojw
  attprojb : IsVec spans.attprojb C w.attprojb
  ln2w : IsVec spans.ln2w C w.ln2w
  ln2b : IsVec spans.ln2b C w.ln2b
  fcw : IsMat spans.fcw (4 * C) C w.fcw
  fcb : IsVec spans.fcb (4 * C) w.fcb
  fcprojw : IsMat spans.fcprojw C (4 * C) w.fcprojw
  fcprojb : IsVec spans.fcprojb C w.fcprojb

/-- The sizes the forward pass and the session compute, for a model whose parameters fit. -/
structure ModelConfig.Sizes (config : ModelConfig) : Prop where
  channels : 0 < config.channels.toNat
  heads_dvd : config.numHeads.toNat ∣ config.channels.toNat
  c3 : (3 * config.channels).toNat = 3 * config.channels.toNat
  c4 : (4 * config.channels).toNat = 4 * config.channels.toNat
  square_lt : 4 * config.channels.toNat * config.channels.toNat < 2 ^ 61
  vocabulary_lt : config.paddedVocabularySize.toNat * config.channels.toNat < 2 ^ 61
  context_lt : config.maxSequenceLength.toNat * config.channels.toNat < 2 ^ 61
  logits_lt : config.maxSequenceLength.toNat * config.paddedVocabularySize.toNat < 2 ^ 62

omit [Scalar α] in
theorem ModelWeights.WellFormed.sizes {weights : ModelWeights α} (h : weights.WellFormed) : weights.config.Sizes := by
  have hCle := channels_le_parameterCount h.valid
  have hfits := h.fits
  have hfcw : ("fcw", [weights.config.numLayers.toNat, 4 * weights.config.channels.toNat, weights.config.channels.toNat]) ∈
    weights.config.shapes := by simp [ModelConfig.shapes, tensorShapes]
  have hwte : ("wte", [weights.config.paddedVocabularySize.toNat, weights.config.channels.toNat]) ∈
    weights.config.shapes := by simp [ModelConfig.shapes, tensorShapes]
  have hwpe : ("wpe", [weights.config.maxSequenceLength.toNat, weights.config.channels.toNat]) ∈
    weights.config.shapes := by simp [ModelConfig.shapes, tensorShapes]
  have hfc := h.prod_lt hfcw
  have hte := h.prod_lt hwte
  have hpe := h.prod_lt hwpe
  simp only [List.prod_cons, List.prod_nil, Nat.mul_one] at hfc hte hpe
  refine ⟨h.valid.channels, h.valid.heads_dvd, toNat_mul_eq rfl rfl (by omega), toNat_mul_eq rfl rfl (by omega),
    ?_, by omega, by omega, ?_⟩
  · have := Nat.le_mul_of_pos_left (4 * weights.config.channels.toNat * weights.config.channels.toNat) h.valid.numLayers
    omega
  · have hlt : weights.config.maxSequenceLength.toNat * weights.config.paddedVocabularySize.toNat <
        2 ^ 31 * 2 ^ 31 := by
      refine Nat.lt_of_le_of_lt (Nat.mul_le_mul_right _ (Nat.le_of_lt h.length_lt)) ?_
      exact Nat.mul_lt_mul_of_pos_left h.vocabulary_lt (by decide)
    omega

theorem ModelConfig.Sizes.checked_c3 {config : ModelConfig} (h : config.Sizes) (context : String) :
    checkedMultiply 3 config.channels context = .ok (3 * config.channels) := checkedMultiply_ok_iff.2 h.c3

theorem ModelConfig.Sizes.checked_c4 {config : ModelConfig} (h : config.Sizes) (context : String) :
    checkedMultiply 4 config.channels context = .ok (4 * config.channels) := checkedMultiply_ok_iff.2 h.c4

/-- The weight matrices of one layer. -/
theorem ModelConfig.Sizes.weights_lt {config : ModelConfig} (h : config.Sizes) :
    config.channels.toNat * config.channels.toNat < 2 ^ 61 ∧ 3 * config.channels.toNat * config.channels.toNat < 2 ^ 61 ∧
      4 * config.channels.toNat * config.channels.toNat < 2 ^ 61 := by
  have hsq := h.square_lt
  refine ⟨?_, ?_, hsq⟩
  · exact Nat.lt_of_le_of_lt (Nat.mul_le_mul_right _ (by omega)) hsq
  · exact Nat.lt_of_le_of_lt (Nat.mul_le_mul_right _ (by omega)) hsq

theorem GPT2Model.realVocabulary_lt (model : GPT2Model α) :
    model.weights.config.vocabularySize.toNat * model.weights.config.channels.toNat < 2 ^ 61 :=
  Nat.lt_of_le_of_lt (Nat.mul_le_mul_right _ model.wellFormed.valid.padded_ge) model.wellFormed.sizes.vocabulary_lt

/-- `wte.first(vocabulary_size * channels)`: the rows of the real vocabulary. -/
theorem GPT2Model.realVocabulary_ok (model : GPT2Model α) {wte : List α}
    (h : IsMat wte model.weights.config.paddedVocabularySize.toNat model.weights.config.channels.toNat model.network.wte) :
    ∃ rows, first wte (model.weights.config.vocabularySize * model.weights.config.channels) = .ok rows ∧
      IsMat rows model.weights.config.vocabularySize.toNat model.weights.config.channels.toNat model.network.wte := by
  have hpad := model.wellFormed.valid.padded_ge
  have hfit := model.realVocabulary_lt
  have hcount := toNat_mul_of_lt (Nat.lt_trans hfit (by decide))
  refine ⟨_, first_ok ?_, ?_⟩
  · rw [hcount, h.1]
    exact Nat.mul_le_mul_right _ hpad
  · rw [hcount]
    exact h.take_rows hpad

/-- The code's slices hold the weights of the network's layer. -/
theorem GPT2Model.layerSpans_ok (model : GPT2Model α) {l : Nat} (hl : l < model.weights.config.numLayers.toNat)
    (context : String) :
    ∃ spans, layerSpans model.weights (UInt64.ofNat l) model.weights.config.channels
        (3 * model.weights.config.channels) (4 * model.weights.config.channels) context = .ok spans ∧
      spans.Holds model.weights.config.channels.toNat (model.network.layer l) := by
  have hw := model.wellFormed
  have hl64 : l < 2 ^ 64 := Nat.lt_trans hl (toNat_lt _)
  obtain ⟨hC, hH, h3, h4, -, -, -, -⟩ := hw.sizes
  obtain ⟨hw1, hw3, hw4⟩ := hw.sizes.weights_lt
  generalize hc : model.weights.config.channels = channels at *
  have hCC : (channels * channels).toNat = channels.toNat * channels.toNat := toNat_mul_eq rfl rfl (by omega)
  have h3C : (3 * channels * channels).toNat = 3 * channels.toNat * channels.toNat := toNat_mul_eq h3 rfl (by omega)
  have h4C : (4 * channels * channels).toNat = 4 * channels.toNat * channels.toNat := toNat_mul_eq h4 rfl (by omega)
  have hC4 : (channels * (4 * channels)).toNat = channels.toNat * (4 * channels.toNat) := toNat_mul_eq rfl h4 (by
    rw [Nat.mul_left_comm, ← Nat.mul_assoc]; omega)
  have hmem : ∀ name dims, (name, dims) ∈ tensorShapes model.weights.config.maxSequenceLength.toNat
      model.weights.config.paddedVocabularySize.toNat model.weights.config.numLayers.toNat channels.toNat →
      (name, dims) ∈ model.weights.config.shapes := by
    intro name dims h; rwa [ModelConfig.shapes, hc]
  -- each slice in turn, in the order of the source
  obtain ⟨ln1w, e_ln1w, h_ln1w⟩ := hw.layerTensor_vec (hmem "ln1w" [_, _] (by simp [tensorShapes])) hl hl64 (rfl : channels.toNat = _) context
  obtain ⟨ln1b, e_ln1b, h_ln1b⟩ := hw.layerTensor_vec (hmem "ln1b" [_, _] (by simp [tensorShapes])) hl hl64 (rfl : channels.toNat = _) context
  obtain ⟨qkvw, e_qkvw, h_qkvw⟩ := hw.layerTensor_mat (hmem "qkvw" [_, _, _] (by simp [tensorShapes])) hl hl64 h3C context
  obtain ⟨qkvb, e_qkvb, h_qkvb⟩ := hw.layerTensor_vec (hmem "qkvb" [_, _] (by simp [tensorShapes])) hl hl64 h3 context
  obtain ⟨attprojw, e_attprojw, h_attprojw⟩ := hw.layerTensor_mat (hmem "attprojw" [_, _, _] (by simp [tensorShapes])) hl hl64 hCC context
  obtain ⟨attprojb, e_attprojb, h_attprojb⟩ := hw.layerTensor_vec (hmem "attprojb" [_, _] (by simp [tensorShapes])) hl hl64 (rfl : channels.toNat = _) context
  obtain ⟨ln2w, e_ln2w, h_ln2w⟩ := hw.layerTensor_vec (hmem "ln2w" [_, _] (by simp [tensorShapes])) hl hl64 (rfl : channels.toNat = _) context
  obtain ⟨ln2b, e_ln2b, h_ln2b⟩ := hw.layerTensor_vec (hmem "ln2b" [_, _] (by simp [tensorShapes])) hl hl64 (rfl : channels.toNat = _) context
  obtain ⟨fcw, e_fcw, h_fcw⟩ := hw.layerTensor_mat (hmem "fcw" [_, _, _] (by simp [tensorShapes])) hl hl64 h4C context
  obtain ⟨fcb, e_fcb, h_fcb⟩ := hw.layerTensor_vec (hmem "fcb" [_, _] (by simp [tensorShapes])) hl hl64 h4 context
  obtain ⟨fcprojw, e_fcprojw, h_fcprojw⟩ := hw.layerTensor_mat (hmem "fcprojw" [_, _, _] (by simp [tensorShapes])) hl hl64 hC4 context
  obtain ⟨fcprojb, e_fcprojb, h_fcprojb⟩ := hw.layerTensor_vec (hmem "fcprojb" [_, _] (by simp [tensorShapes])) hl hl64 (rfl : channels.toNat = _) context
  refine ⟨⟨ln1w, ln1b, qkvw, qkvb, attprojw, attprojb, ln2w, ln2b, fcw, fcb, fcprojw, fcprojb⟩, ?_,
    h_ln1w, h_ln1b, h_qkvw, h_qkvb, h_attprojw, h_attprojb, h_ln2w, h_ln2b, h_fcw, h_fcb, h_fcprojw, h_fcprojb⟩
  simp only [layerSpans, e_ln1w, e_ln1b, e_qkvw, e_qkvb, e_attprojw, e_attprojb, e_ln2w, e_ln2b, e_fcw, e_fcb, e_fcprojw,
    e_fcprojb, ok_bind, pure_ok]

end Gpt2Runtime
