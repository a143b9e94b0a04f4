import Gpt2Runtime.SessionRuns
/-
# Inference on a loaded model is safe (`model.cpp:280-392`, `session.cpp:41-276`)

| here | there |
| --- | --- |
| `SliceProducts`         | the sizes of the layer slices (`model.cpp:347-361`, `session.cpp:231-245`) |
| `LayerNormProducts`, `LinearProducts`, `CausalProducts`, `CachedProducts` | the products of each kernel, in its size checks and in its loops |
| `ForwardProducts`       | all products of `forward` |
| `ConsumeProducts`       | all products of `consume_token`, the cache's included |

In the model a failed check, a checked product that overflows and an access outside its span all are errors of the
call; what an error does not show is a product that wraps. The bounds come from the tensors, which fit in
memory, and for the logits from the 31-bit dimensions of the header.
-/

namespace Gpt2Runtime

open Loop Flat Word

/-- The product of two sizes does not wrap. -/
def Exact (a b : UInt64) : Prop := (a * b).toNat = a.toNat * b.toNat

theorem Exact.of_lt {a b : UInt64} (h : a.toNat * b.toNat < 2 ^ 64) : Exact a b := toNat_mul_of_lt h

/-- A smaller left factor. -/
theorem Exact.of_le {a a' b : UInt64} (hle : a'.toNat ≤ a.toNat) (h : a.toNat * b.toNat < 2 ^ 64) : Exact a' b :=
  .of_lt (Nat.lt_of_le_of_lt (Nat.mul_le_mul_right _ hle) h)

theorem Exact.of_lt_left {a a' b : UInt64} (hlt : a' < a) (h : a.toNat * b.toNat < 2 ^ 64) : Exact a' b :=
  .of_le (Nat.le_of_lt (lt_iff.1 hlt)) h

/-! ## The kernels -/

structure LayerNormProducts (rows channels : UInt64) : Prop where
  size : Exact rows channels
  base : ∀ row, row < rows → Exact row channels

structure LinearProducts (rows inputChannels outputChannels : UInt64) : Prop where
  output : Exact rows outputChannels
  input : Exact rows inputChannels
  weight : Exact outputChannels inputChannels
  inputBase : ∀ row, row < rows → Exact row inputChannels
  outputBase : ∀ row, row < rows → Exact row outputChannels
  weightBase : ∀ outChannel, outChannel < outputChannels → Exact outChannel inputChannels

structure CausalProducts (sequenceLength channels numHeads : UInt64) : Prop where
  output : Exact sequenceLength channels
  triple : Exact sequenceLength 3
  qkv : Exact (sequenceLength * 3) channels
  values : Exact 2 channels
  position : ∀ position, position < sequenceLength → Exact position channels
  row : ∀ position, position < sequenceLength → Exact position 3 ∧ Exact (position * 3) channels
  head : ∀ head, head < numHeads → Exact head (channels / numHeads)

structure CachedProducts (visibleLength capacity channels numHeads : UInt64) : Prop where
  cache : Exact capacity channels
  source : ∀ source, source < visibleLength → Exact source channels
  head : ∀ head, head < numHeads → Exact head (channels / numHeads)

theorem layerNormProducts {rows channels : UInt64} (h : rows.toNat * channels.toNat < 2 ^ 64) : LayerNormProducts rows channels :=
  ⟨.of_lt h, fun _ hrow => .of_lt_left hrow h⟩

theorem linearProducts {rows inputChannels outputChannels : UInt64} (ho : rows.toNat * outputChannels.toNat < 2 ^ 64)
    (hi : rows.toNat * inputChannels.toNat < 2 ^ 64) (hw : outputChannels.toNat * inputChannels.toNat < 2 ^ 64) :
    LinearProducts rows inputChannels outputChannels :=
  ⟨.of_lt ho, .of_lt hi, .of_lt hw, fun _ hrow => .of_lt_left hrow hi, fun _ hrow => .of_lt_left hrow ho,
    fun _ hchannel => .of_lt_left hchannel hw⟩

/-- A head offset is a channel. -/
theorem headProducts {channels numHeads : UInt64} : ∀ head, head < numHeads → Exact head (channels / numHeads) := by
  intro head hhead
  refine .of_lt ?_
  have hle := Nat.mul_div_le channels.toNat numHeads.toNat
  have hlt := Nat.mul_le_mul_right (channels.toNat / numHeads.toNat) (Nat.le_of_lt (lt_iff.1 hhead))
  have hC := toNat_lt channels
  rw [UInt64.toNat_div]
  omega

theorem causalProducts {sequenceLength channels numHeads : UInt64} (hC : 0 < channels.toNat)
    (h : sequenceLength.toNat * channels.toNat < 2 ^ 61) (hC3 : 3 * channels.toNat < 2 ^ 64) :
    CausalProducts sequenceLength channels numHeads := by
  have h3 : (3 : UInt64).toNat = 3 := rfl
  have triple : ∀ {rows : UInt64}, rows.toNat * channels.toNat < 2 ^ 61 → Exact rows 3 ∧ Exact (rows * 3) channels := by
    intro rows hrows
    have hle : rows.toNat ≤ rows.toNat * channels.toNat := Nat.le_mul_of_pos_right _ hC
    have hrows3 : Exact rows 3 := .of_lt (by rw [h3]; omega)
    refine ⟨hrows3, .of_lt ?_⟩
    rw [hrows3, h3, Nat.mul_right_comm]
    omega
  refine ⟨.of_lt (by omega), (triple h).1, (triple h).2, .of_lt ?_, ?_, ?_, headProducts⟩
  · show 2 * channels.toNat < 2 ^ 64
    omega
  · intro position hposition
    exact .of_lt_left hposition (by omega)
  · intro position hposition
    exact triple (Nat.lt_of_le_of_lt (Nat.mul_le_mul_right _ (Nat.le_of_lt (lt_iff.1 hposition))) h)

theorem cachedProducts {visibleLength capacity channels numHeads : UInt64} (hle : visibleLength.toNat ≤ capacity.toNat)
    (h : capacity.toNat * channels.toNat < 2 ^ 64) : CachedProducts visibleLength capacity channels numHeads :=
  ⟨.of_lt h, fun _ hsource => .of_le (Nat.le_trans (Nat.le_of_lt (lt_iff.1 hsource)) hle) h, headProducts⟩

/-! ## The forward pass -/

structure SliceProducts (channels : UInt64) : Prop where
  c3 : Exact 3 channels
  c4 : Exact 4 channels
  qkvw : Exact (3 * channels) channels
  attprojw : Exact channels channels
  fcw : Exact (4 * channels) channels
  fcprojw : Exact channels (4 * channels)

structure ForwardProducts (config : ModelConfig) (tokens : List Int32) : Prop where
  slices : SliceProducts config.channels
  tokenChannels : Exact (UInt64.ofNat tokens.length) config.channels
  tokenBase : ∀ token ∈ tokens, Exact (castSize token) config.channels
  positionBase : ∀ position, position < UInt64.ofNat tokens.length → Exact position config.channels
  layerNorm : LayerNormProducts (UInt64.ofNat tokens.length) config.channels
  qkv : LinearProducts (UInt64.ofNat tokens.length) config.channels (3 * config.channels)
  attention : CausalProducts (UInt64.ofNat tokens.length) config.channels config.numHeads
  attproj : LinearProducts (UInt64.ofNat tokens.length) config.channels config.channels
  fc : LinearProducts (UInt64.ofNat tokens.length) config.channels (4 * config.channels)
  fcproj : LinearProducts (UInt64.ofNat tokens.length) (4 * config.channels) config.channels
  logits : LinearProducts (UInt64.ofNat tokens.length) config.channels config.paddedVocabularySize

section
variable {config : ModelConfig} (hv : config.Valid) (hsz : config.Sizes)
include hsz

theorem sliceProducts : SliceProducts config.channels := by
  obtain ⟨hw1, hw3, hw4⟩ := hsz.weights_lt
  refine ⟨hsz.c3, hsz.c4, .of_lt ?_, .of_lt (by omega), .of_lt ?_, .of_lt ?_⟩
  · rw [hsz.c3]; omega
  · rw [hsz.c4]; omega
  · rw [hsz.c4, Nat.mul_comm]; omega

/-- The linear operations of a layer on `rows` rows. -/
theorem layer_linearProducts {rows : UInt64} (h : rows.toNat * config.channels.toNat < 2 ^ 61) :
    LinearProducts rows config.channels (3 * config.channels) ∧ LinearProducts rows config.channels config.channels ∧
      LinearProducts rows config.channels (4 * config.channels) ∧ LinearProducts rows (4 * config.channels) config.channels := by
  obtain ⟨hw1, hw3, hw4⟩ := hsz.weights_lt
  have h3 : rows.toNat * (3 * config.channels).toNat < 2 ^ 64 := by rw [hsz.c3, Nat.mul_left_comm]; omega
  have h4 : rows.toNat * (4 * config.channels).toNat < 2 ^ 64 := by rw [hsz.c4, Nat.mul_left_comm]; omega
  refine ⟨linearProducts h3 (by omega) ?_, linearProducts (by omega) (by omega) (by omega), linearProducts h4 (by omega) ?_,
    linearProducts (by omega) h4 ?_⟩
  · rw [hsz.c3]; omega
  · rw [hsz.c4]; omega
  · rw [hsz.c4, Nat.mul_comm]; omega

include hv

/-- A valid ID is a row of `wte`. -/
theorem tokenBase_exact {token : Int32} (h : TokenValid config token) : Exact (castSize token) config.channels := by
  have hpad := hv.padded_ge
  have hlt := h.2
  have hvocabulary := hsz.vocabulary_lt
  refine .of_le (a := config.paddedVocabularySize) ?_ (by omega)
  rw [h.toNat]
  omega

theorem forwardProducts {tokens : List Int32} (h : Accepted config tokens) : ForwardProducts config tokens := by
  obtain ⟨hpos, -, hRC, hRV⟩ := h.rowsFit hsz
  obtain ⟨hqkv, hattproj, hfc, hfcproj⟩ := layer_linearProducts hsz hRC
  have hvocabulary := hsz.vocabulary_lt
  have hsq := hsz.square_lt
  have hCle : config.channels.toNat ≤ (UInt64.ofNat tokens.length).toNat * config.channels.toNat := Nat.le_mul_of_pos_left _ hpos
  exact
    { slices := sliceProducts hsz
      tokenChannels := .of_lt (by omega)
      tokenBase := fun token htoken => tokenBase_exact hv hsz (h.valid token htoken)
      positionBase := fun position hposition => .of_lt_left hposition (by omega)
      layerNorm := layerNormProducts (by omega)
      qkv := hqkv
      attention := causalProducts hsz.channels hRC (by omega)
      attproj := hattproj
      fc := hfc
      fcproj := hfcproj
      logits := linearProducts (by omega) (by omega) (by omega) }

end

/-! ## Sessions -/

section
variable {α : Type} [Scalar α] {model : GPT2Model α}

/-- The products of consuming `token` at `position`. -/
structure ConsumeProducts (s : InferenceSession model) (token : Int32) (position : UInt64) : Prop where
  slices : SliceProducts model.weights.config.channels
  tokenBase : Exact (castSize token) model.weights.config.channels
  positionBase : Exact position model.weights.config.channels
  values : Exact 2 model.weights.config.channels
  vocabularyRows : Exact model.weights.config.vocabularySize model.weights.config.channels
  cacheLayer : ∀ layer, layer < s.cache.numLayers → Exact layer s.cache.layerFloatCount
  cachePosition : Exact position s.cache.channels
  layerNorm : LayerNormProducts 1 model.weights.config.channels
  qkv : LinearProducts 1 model.weights.config.channels (3 * model.weights.config.channels)
  attention : CachedProducts (position + 1) s.cache.capacity model.weights.config.channels model.weights.config.numHeads
  attproj : LinearProducts 1 model.weights.config.channels model.weights.config.channels
  fc : LinearProducts 1 model.weights.config.channels (4 * model.weights.config.channels)
  fcproj : LinearProducts 1 (4 * model.weights.config.channels) model.weights.config.channels
  logits : LinearProducts 1 model.weights.config.channels model.weights.config.vocabularySize

theorem consumeProducts {s : InferenceSession model} {capacity : UInt64} (h : s.Shape capacity) {token : Int32}
    (htoken : TokenValid model.weights.config token) {position : UInt64} (hposition : position.toNat < capacity.toNat) :
    ConsumeProducts s token position := by
  have hv := model.wellFormed.valid
  have hsz := model.wellFormed.sizes
  have hle := h.le_context
  have hpad := hv.padded_ge
  have hsq := hsz.square_lt
  have hcontext := hsz.context_lt
  have hone : (1 : UInt64).toNat = 1 := rfl
  have hC : model.weights.config.channels.toNat ≤
      model.weights.config.maxSequenceLength.toNat * model.weights.config.channels.toNat :=
    Nat.le_mul_of_pos_left _ hv.maxSequenceLength
  have hKC : capacity.toNat * model.weights.config.channels.toNat < 2 ^ 61 :=
    Nat.lt_of_le_of_lt (Nat.mul_le_mul_right _ hle) hcontext
  have hVC := model.realVocabulary_lt
  have hposExact : Exact position model.weights.config.channels := .of_le (Nat.le_of_lt hposition) (by omega)
  have hK64 := toNat_lt capacity
  have hV64 := toNat_lt model.weights.config.vocabularySize
  have hvisible : (position + 1).toNat = position.toNat + 1 := toNat_add_eq rfl hone (by omega)
  have hrow : (1 : UInt64).toNat * model.weights.config.channels.toNat < 2 ^ 61 := by rw [hone]; omega
  obtain ⟨hqkv, hattproj, hfc, hfcproj⟩ := layer_linearProducts hsz hrow
  exact
    { slices := sliceProducts hsz
      tokenBase := tokenBase_exact hv hsz htoken
      positionBase := hposExact
      values := .of_lt (show 2 * _ < 2 ^ 64 by omega)
      vocabularyRows := .of_lt (by omega)
      cacheLayer := fun layer hlayer => .of_lt_left hlayer (by
        have hfits := h.cache.fits
        rw [h.cache.layerFloatCount]
        omega)
      cachePosition := by rw [h.channels]; exact hposExact
      layerNorm := layerNormProducts (by rw [hone]; omega)
      qkv := hqkv
      attention := by
        rw [h.capacity_eq]
        exact cachedProducts (by omega) (by omega)
      attproj := hattproj
      fc := hfc
      fcproj := hfcproj
      logits := linearProducts (by rw [hone]; omega) (by rw [hone]; omega) (by omega) }

end

/-- A committed call answers with an error only if it met one. -/
theorem TokenMachine.commit_error {α : Type} {m : TokenMachine α} {P P' : List Int32} {r : Except Exc Unit} {e : Exc}
    (h : (m.commit P P' r).1 = .error e) : r = .error e := by
  cases r with
  | ok u => cases h
  | error e' =>
    cases h
    rfl

namespace InferenceSession

variable {α : Type} [Scalar α] {model : GPT2Model α} {capacity : UInt64} {s : InferenceSession model} {P : List Int32}

/-! ## Accepted calls -/

theorem Holds.prefill_products (h : s.Holds capacity P) {prompt : List Int32} (haccepted : s.validatePrefill prompt = .ok ())
    {position : Nat} {token : Int32} (htoken : prompt[position]? = some token) :
    ConsumeProducts s token (UInt64.ofNat position) := by
  rw [h.validatePrefill] at haccepted
  obtain ⟨-, -, hle, hvalid⟩ := TokenMachine.checkPrefill_ok_iff.1 haccepted
  have hcapacity : prompt.length ≤ capacity.toNat := hle
  have hK64 := toNat_lt capacity
  obtain ⟨hlt, -⟩ := List.getElem?_eq_some_iff.1 htoken
  refine consumeProducts h.shape (hvalid token (List.mem_of_getElem? htoken)) ?_
  rw [toNat_ofNat_of_lt (by omega)]
  omega

theorem Holds.decode_products (h : s.Holds capacity P) {token : Int32} (haccepted : s.validateDecode token = .ok ()) :
    ConsumeProducts s token s.size := by
  rw [h.validateDecode] at haccepted
  obtain ⟨-, htoken, hfull⟩ := TokenMachine.checkDecode_ok_iff.1 haccepted
  refine consumeProducts h.shape htoken ?_
  rw [h.size]
  exact Nat.lt_of_le_of_ne h.length_le hfull

/-- **An accepted prefill** fails where its executor throws and nowhere else. -/
theorem Holds.prefill_error (h : s.Holds capacity P) {prompt : List Int32} (haccepted : s.validatePrefill prompt = .ok ())
    {executor : Option (Executor α)} {plan : Plan} (hf : Follows executor plan) {e : Exc} {s' : InferenceSession model}
    (herr : s.prefill prompt executor = .error (e, s')) :
    plan.tokens model.weights.config.numLayers.toNat prompt.length = .error e := by
  rw [h.validatePrefill] at haccepted
  have hreq : (Call.prefill prompt executor).Makes (.prefill prompt plan) := .prefill hf
  have hout := (step_refines h hreq).1
  simp only [step, herr, TokenMachine.step, haccepted, ok_bind] at hout
  exact TokenMachine.commit_error hout.symm

theorem Holds.decode_error (h : s.Holds capacity P) {token : Int32} (haccepted : s.validateDecode token = .ok ())
    {executor : Option (Executor α)} {plan : Plan} (hf : Follows executor plan) {e : Exc} {s' : InferenceSession model}
    (herr : s.decode token executor = .error (e, s')) :
    plan.token model.weights.config.numLayers.toNat s.size.toNat = .error e := by
  rw [h.validateDecode] at haccepted
  have hreq : (Call.decode token executor).Makes (.decode token plan) := .decode hf
  have hout := (step_refines h hreq).1
  simp only [step, herr, TokenMachine.step, haccepted, ok_bind] at hout
  rw [h.size]
  exact TokenMachine.commit_error hout.symm

end InferenceSession

/-! ## A loaded model -/

theorem not_tokenValid_iff {config : ModelConfig} {token : Int32} :
    ¬TokenValid config token ↔ token.toInt < 0 ∨ (config.vocabularySize.toNat : Int) ≤ token.toInt := by
  unfold TokenValid tokenId
  omega

theorem not_accepted_iff {config : ModelConfig} {tokens : List Int32} :
    ¬Accepted config tokens ↔ tokens = [] ∨ config.maxSequenceLength.toNat < tokens.length ∨
      ∃ t ∈ tokens, t.toInt < 0 ∨ (config.vocabularySize.toNat : Int) ≤ t.toInt := by
  simp only [← not_tokenValid_iff]
  constructor
  · intro h
    by_cases h0 : tokens = []
    · exact .inl h0
    by_cases hlen : config.maxSequenceLength.toNat < tokens.length
    · exact .inr (.inl hlen)
    refine .inr (.inr ?_)
    by_contra hcon
    exact h ⟨h0, Nat.le_of_not_lt hlen, fun t ht => by_contra fun hinvalid => hcon ⟨t, ht, hinvalid⟩⟩
  · rintro (h | h | ⟨t, ht, hinvalid⟩) haccepted
    · exact haccepted.nonempty h
    · exact Nat.not_lt_of_le haccepted.length_le h
    · exact hinvalid (haccepted.valid t ht)

/-- A call throws exactly if it does not return. -/
theorem throws_iff {ε β : Type} {x : Except ε β} : (∃ e, x = .error e) ↔ ¬∃ b, x = .ok b := by
  cases x <;> simp

open InferenceSession in
/-- **Inference on a loaded model never reaches an internal error or a wrapped product.** `forward` and the session
constructor fail on bad arguments only; an accepted `forward` returns; an accepted `prefill` or `decode` of a
reachable session fails only with what its executor throws, and no product in them wraps. -/
theorem inference_is_safe {α : Type} [Scalar α] (model : GPT2Model α) :
    (∀ tokens workspace, (∃ x, model.forward tokens workspace = .error x) ↔
      tokens = [] ∨ model.weights.config.maxSequenceLength.toNat < tokens.length ∨
        ∃ t ∈ tokens, t.toInt < 0 ∨ (model.weights.config.vocabularySize.toNat : Int) ≤ t.toInt) ∧
    (∀ tokens workspace ws, model.forward tokens workspace = .ok ws → ForwardProducts model.weights.config tokens) ∧
    (∀ capacity, (∃ e, make model capacity = .error e) ↔
      capacity.toNat < 1 ∨ model.weights.config.maxSequenceLength.toNat < capacity.toNat ∨
        2 ^ 64 - 1 < 8 * model.weights.config.numLayers.toNat * capacity.toNat * model.weights.config.channels.toNat) ∧
    ∀ capacity (s : InferenceSession model) P, Reachable Planned capacity s P →
      (∀ prompt, s.validatePrefill prompt = .ok () →
        (∀ position token, prompt[position]? = some token → ConsumeProducts s token (UInt64.ofNat position)) ∧
        (∀ executor, Faithful executor → ∃ s', s.prefill prompt executor = .ok s') ∧
        ∀ executor plan e s', Follows executor plan → s.prefill prompt executor = .error (e, s') →
          plan.tokens model.weights.config.numLayers.toNat prompt.length = .error e) ∧
      ∀ token, s.validateDecode token = .ok () →
        ConsumeProducts s token s.size ∧
        (∀ executor, Faithful executor → ∃ s', s.decode token executor = .ok s') ∧
        ∀ executor plan e s', Follows executor plan → s.decode token executor = .error (e, s') →
          plan.token model.weights.config.numLayers.toNat s.size.toNat = .error e := by
  have hw := model.wellFormed
  refine ⟨?_, ?_, ?_, ?_⟩
  · intro tokens workspace
    rw [throws_iff, forward_ok_iff, not_accepted_iff]
  · intro tokens workspace ws hok
    exact forwardProducts hw.valid hw.sizes ((forward_ok_iff model tokens workspace).1 ⟨ws, hok⟩)
  · intro capacity
    rw [throws_iff, make_ok_iff, CapacityFits, Nat.mul_assoc, Nat.mul_assoc]
    omega
  · intro capacity s P hreach
    have hholds : s.Holds capacity P := hreach.holds fun executor hA => hA
    refine ⟨?_, ?_⟩
    · intro prompt haccepted
      refine ⟨fun position token => hholds.prefill_products haccepted, ?_, fun executor plan e s' hf =>
        hholds.prefill_error haccepted hf⟩
      intro executor hf
      exact (hholds.prefill_returns_iff prompt hf).2 (hholds.validatePrefill prompt ▸ haccepted)
    · intro token haccepted
      refine ⟨hholds.decode_products haccepted, ?_, fun executor plan e s' hf => hholds.decode_error haccepted hf⟩
      intro executor hf
      exact (hholds.decode_returns_iff token hf).2 (hholds.validateDecode token ▸ haccepted)

end Gpt2Runtime
