import Gpt2Runtime.Forward
/-
# The forward pass computes the network

From any workspace, `forward` accepts exactly the non-empty token lists of at most the context
length with IDs in the real vocabulary, and then its logits are those of `GPT2Model.network`
(`forward_ok`). One step lemma for a layer (`forwardLayer_ok`), an induction for all of them
(`forwardThrough_ok`); the buffers' old contents never enter because every kernel spec holds for arbitrary
outputs and scratch.
-/

namespace Gpt2Runtime

open Loop Flat Word Kernels

/-! ## Tokens -/

/-- The ID as an index. -/
def tokenId (token : Int32) : Nat := token.toInt.toNat

/-- The IDs of a token list by position. -/
def tokenAt (tokens : List Int32) (position : Nat) : Nat := tokenId (tokens.getD position 0)

/-- An ID of the real vocabulary. -/
def TokenValid (config : ModelConfig) (token : Int32) : Prop :=
  0 ≤ token.toInt ∧ tokenId token < config.vocabularySize.toNat

instance (config : ModelConfig) (token : Int32) : Decidable (TokenValid config token) :=
  inferInstanceAs (Decidable (_ ∧ _))

-- by the list, not by the finitely many tokens there are
instance (config : ModelConfig) (tokens : List Int32) : Decidable (∀ t ∈ tokens, TokenValid config t) :=
  List.decidableBAll _ tokens

theorem TokenValid.toNat {config : ModelConfig} {token : Int32} (h : TokenValid config token) :
    (castSize token).toNat = tokenId token := toNat_castSize h.1

theorem tokenValid_iff {config : ModelConfig} {token : Int32} :
    ¬(token < 0 ∨ config.vocabularySize ≤ castSize token) ↔ TokenValid config token := by
  rw [not_or, Int32.lt_iff_toInt_lt, Int32.toInt_zero, le_iff]
  constructor
  · rintro ⟨h0, hlt⟩
    rw [toNat_castSize (by omega)] at hlt
    exact ⟨by omega, by unfold tokenId; omega⟩
  · rintro ⟨h0, hlt⟩
    rw [toNat_castSize h0]
    unfold tokenId at hlt
    exact ⟨by omega, by omega⟩

theorem validateToken_eq (config : ModelConfig) (token : Int32) :
    validateToken config token =
      throwIf (¬TokenValid config token) (.invalidArgument "input token ID is outside the real vocabulary") := by
  by_cases h : TokenValid config token
  · rw [throwIf_of_not (not_not.2 h), validateToken, throwIf_of_not (tokenValid_iff.2 h)]
  · rw [throwIf_of h, validateToken, throwIf_of (not_not.1 (mt tokenValid_iff.1 h))]

/-- The loop over the tokens stops at the first bad ID. -/
theorem forM_validateToken (config : ModelConfig) (tokens : List Int32) :
    tokens.forM (validateToken config) = throwIf (¬∀ t ∈ tokens, TokenValid config t)
      (.invalidArgument "input token ID is outside the real vocabulary") := by
  induction tokens with
  | nil => simp
  | cons t ts ih =>
    by_cases h : TokenValid config t
    · simpa [validateToken_eq, h] using ih
    · simp [validateToken_eq, h]

theorem tokenAt_take {tokens : List Int32} {m p : Nat} (h : p < m) : tokenAt (tokens.take m) p = tokenAt tokens p := by
  simp [tokenAt, List.getD_eq_getElem?_getD, List.getElem?_take_of_lt h]

variable {α : Type} [Scalar α]

/-! ## The workspace -/

/-- The buffers have the sizes of `T` rows. -/
structure InferenceWorkspace.Sized (workspace : InferenceWorkspace α) (T C Vp : Nat) : Prop where
  residual : workspace.residual.length = T * C
  normalized : workspace.normalized.length = T * C
  qkv : workspace.qkv.length = T * (3 * C)
  attentionOutput : workspace.attentionOutput.length = T * C
  projected : workspace.projected.length = T * C
  mlpHidden : workspace.mlpHidden.length = T * (4 * C)
  attentionScores : workspace.attentionScores.length = T
  logits : workspace.logits.length = T * Vp

theorem length_resizeVector (values : List α) (count : UInt64) : (resizeVector values count).length = count.toNat := by
  simp only [resizeVector, List.length_append, List.length_take, List.length_replicate]
  omega

/-- The row counts `forward` accepts, with the products the layers compute. -/
structure RowsFit (config : ModelConfig) (rows : UInt64) : Prop where
  positive : 0 < rows.toNat
  le_context : rows.toNat ≤ config.maxSequenceLength.toNat
  channels_lt : rows.toNat * config.channels.toNat < 2 ^ 61
  logits_lt : rows.toNat * config.paddedVocabularySize.toNat < 2 ^ 62

theorem ModelConfig.Sizes.rowsFit {config : ModelConfig} (h : config.Sizes) {rows : UInt64} (hpos : 0 < rows.toNat)
    (hle : rows.toNat ≤ config.maxSequenceLength.toNat) : RowsFit config rows :=
  ⟨hpos, hle, Nat.lt_of_le_of_lt (Nat.mul_le_mul_right _ hle) h.context_lt,
    Nat.lt_of_le_of_lt (Nat.mul_le_mul_right _ hle) h.logits_lt⟩

theorem InferenceWorkspace.resize_ok {config : ModelConfig} {rows : UInt64} (workspace : InferenceWorkspace α)
    (hv : config.Valid) (hr : RowsFit config rows) :
    ∃ ws, workspace.resize config rows = .ok ws ∧ ws.sequenceLength = rows ∧
      ws.Sized rows.toNat config.channels.toNat config.paddedVocabularySize.toNat := by
  obtain ⟨hpos, hle, hTC, hTV⟩ := hr
  have hTCn : (rows * config.channels).toNat = rows.toNat * config.channels.toNat := toNat_mul_of_lt (by omega)
  have h3 : (rows * config.channels).toNat * (3 : UInt64).toNat < 2 ^ 64 := by rw [hTCn]; show _ * 3 < _; omega
  have h4 : (rows * config.channels).toNat * (4 : UInt64).toNat < 2 ^ 64 := by rw [hTCn]; show _ * 4 < _; omega
  have hrange : ¬(rows = 0 ∨ config.maxSequenceLength < rows) := by rw [eq_zero_iff, lt_iff]; omega
  simp only [resize, resizeSteps, (ModelConfig.validate_ok_iff config).2 hv, throwIf_of_not hrange,
    checkedMultiply_of_lt (show rows.toNat * config.channels.toNat < 2 ^ 64 by omega), checkedMultiply_of_lt h3,
    checkedMultiply_of_lt h4,
    checkedMultiply_of_lt (show rows.toNat * config.paddedVocabularySize.toNat < 2 ^ 64 by omega), keep_ok, ok_bind, pure_ok]
  refine ⟨_, rfl, rfl, ?_⟩
  simp only [List.foldl_cons, List.foldl_nil]
  refine ⟨?_, ?_, ?_, ?_, ?_, ?_, length_resizeVector _ _, ?_⟩
  · rw [length_resizeVector, hTCn]
  · rw [length_resizeVector, hTCn]
  · rw [length_resizeVector, toNat_mul_of_lt h3, hTCn]; show _ * 3 = _; rw [Nat.mul_assoc, Nat.mul_comm _ 3]
  · rw [length_resizeVector, hTCn]
  · rw [length_resizeVector, hTCn]
  · rw [length_resizeVector, toNat_mul_of_lt h4, hTCn]; show _ * 4 = _; rw [Nat.mul_assoc, Nat.mul_comm _ 4]
  · rw [length_resizeVector, toNat_mul_of_lt (by omega)]

/-! ## Embedding -/

theorem embed_ok {model : GPT2Model α} {residual wte wpe : List α} {tokens : List Int32}
    (htok : ∀ t ∈ tokens, TokenValid model.weights.config t)
    (hlen : tokens.length ≤ model.weights.config.maxSequenceLength.toNat)
    (hwte : IsMat wte model.weights.config.paddedVocabularySize.toNat model.weights.config.channels.toNat model.network.wte)
    (hwpe : IsMat wpe model.weights.config.maxSequenceLength.toNat model.weights.config.channels.toNat model.network.wpe)
    (hres : residual.length = tokens.length * model.weights.config.channels.toNat) :
    ∃ out, embed residual wte wpe tokens model.weights.config.channels = .ok out ∧
      IsMat out tokens.length model.weights.config.channels.toNat (model.network.residual (tokenAt tokens) 0) := by
  have hw := model.wellFormed
  have hpad := hw.valid.padded_ge
  have hVC := hw.sizes.vocabulary_lt
  have hTC := hw.sizes.context_lt
  have hT := hw.length_lt
  apply mat_loop hres
  intro t out ht hl
  obtain ⟨hpos, hlt⟩ := htok tokens[t] (List.getElem_mem ht)
  have hcast : (castSize tokens[t]).toNat = tokenId tokens[t] := toNat_castSize hpos
  have htokAt : tokenAt tokens t = tokenId tokens[t] := by
    simp [tokenAt, List.getD_eq_getElem?_getD, List.getElem?_eq_getElem ht]
  beta_reduce
  rw [read_ok (toNat_ofNat_of_lt (by omega)) (List.getElem?_eq_getElem ht), ok_bind]
  apply fill_loop (by rw [hl]; exact row_end_le ht)
  intro c out' hc hF
  have hC64 := toNat_lt model.weights.config.channels
  -- the two rows read lie inside their tensors, so no index wraps
  have htokrow := idx_lt (show tokenId tokens[t] < _ from Nat.lt_of_lt_of_le hlt hpad) hc
  have hposrow := idx_lt (Nat.lt_of_lt_of_le ht hlen) hc
  have hbase : (castSize tokens[t] * model.weights.config.channels + UInt64.ofNat c).toNat =
      tokenId tokens[t] * model.weights.config.channels.toNat + c :=
    toNat_add_eq (toNat_mul_eq hcast rfl (by omega)) (toNat_ofNat_of_lt (by omega)) (by omega)
  have hbase' : (UInt64.ofNat t * model.weights.config.channels + UInt64.ofNat c).toNat =
      t * model.weights.config.channels.toNat + c := toNat_idx (by omega) (by omega)
  beta_reduce
  rw [read_ok hbase (hwte.2 _ (Nat.lt_of_lt_of_le hlt hpad) c hc), ok_bind,
    read_ok hbase' (hwpe.2 t (Nat.lt_of_lt_of_le ht hlen) c hc), ok_bind,
    write_ok _ hbase' (by rw [hF.length, hl]; exact idx_lt ht hc)]
  simp only [Network.residual, htokAt]

/-! ## A layer -/

/-- **One layer**: the residual goes through `block`, whatever the other buffers held; the qkv buffer
keeps the layer's activations. -/
theorem forwardLayer_ok {model : GPT2Model α} {l : Nat} (hl : l < model.weights.config.numLayers.toNat) {rows : UInt64}
    (hr : RowsFit model.weights.config rows) {workspace : InferenceWorkspace α} {Vp : Nat}
    (hs : workspace.Sized rows.toNat model.weights.config.channels.toNat Vp) {x : Nat → Nat → α}
    (hx : IsMat workspace.residual rows.toNat model.weights.config.channels.toNat x) :
    ∃ ws, forwardLayer model.weights rows model.weights.config.channels (3 * model.weights.config.channels)
        (4 * model.weights.config.channels) (UInt64.ofNat l) workspace = .ok ws ∧
      ws.sequenceLength = workspace.sequenceLength ∧ ws.Sized rows.toNat model.weights.config.channels.toNat Vp ∧
      IsMat ws.residual rows.toNat model.weights.config.channels.toNat
        (block model.weights.config.channels.toNat model.weights.config.numHeads.toNat (model.network.layer l) x) ∧
      IsMat ws.qkv rows.toNat (3 * model.weights.config.channels.toNat)
        (fun t => qkvRow model.weights.config.channels.toNat (model.network.layer l) (x t)) := by
  obtain ⟨hC, hH, h3, h4, -, -, -, -⟩ := model.wellFormed.sizes
  obtain ⟨hCC, h3C, h4C⟩ := model.wellFormed.sizes.weights_lt
  obtain ⟨hpos, hle, hTC, hTV⟩ := hr
  obtain ⟨w, hw, hspans⟩ := model.layerSpans_ok hl "layer tensor offset"
  generalize model.network.layer l = lw at *
  generalize hch : model.weights.config.channels = channels at *
  have hT3 : rows.toNat * (3 * channels.toNat) < 2 ^ 64 := by rw [Nat.mul_left_comm]; omega
  have hT4 : rows.toNat * (4 * channels.toNat) < 2 ^ 64 := by rw [Nat.mul_left_comm]; omega
  have hTC' : rows.toNat * channels.toNat < 2 ^ 64 := by omega
  -- attention half
  obtain ⟨normalized, e1, m1⟩ := layerNorm_ok hTC' hC hs.normalized hx hspans.ln1w hspans.ln1b
  obtain ⟨qkv, e2, m2⟩ := linear_ok channels (3 * channels) (by rw [h3]; exact hT3) hTC' (by rw [h3]; omega)
    (by rw [h3]; exact hs.qkv) m1 (by rw [h3]; exact hspans.qkvw) (by rw [h3]; exact .of_vec (by omega) hspans.qkvb)
  rw [h3] at m2
  obtain ⟨attentionOutput, attentionScores, e3, hscores, m3⟩ :=
    causalSelfAttention_ok hT3 hC hH hs.attentionOutput m2 hs.attentionScores
  obtain ⟨projected, e4, m4⟩ := linear_ok channels channels hTC' hTC' (by omega) hs.projected m3 hspans.attprojw (.of_vec hC hspans.attprojb)
  obtain ⟨residual, e5, m5⟩ := addInPlace_ok hTC' hx m4
  -- MLP half
  obtain ⟨normalized', e6, m6⟩ := layerNorm_ok hTC' hC m1.1 m5 hspans.ln2w hspans.ln2b
  obtain ⟨mlpHidden, e7, m7⟩ := linear_ok channels (4 * channels) (by rw [h4]; exact hT4) hTC' (by rw [h4]; omega)
    (by rw [h4]; exact hs.mlpHidden) m6 (by rw [h4]; exact hspans.fcw) (by rw [h4]; exact .of_vec (by omega) hspans.fcb)
  have m7' := geluInPlace_mat m7
  obtain ⟨projected', e8, m8⟩ := linear_ok (4 * channels) channels hTC' (by rw [h4]; exact hT4) (by rw [h4, Nat.mul_comm]; omega)
    m4.1 m7' (by rw [h4]; exact hspans.fcprojw) (.of_vec hC hspans.fcprojb)
  obtain ⟨residual', e9, m9⟩ := addInPlace_ok hTC' m5 m8
  rw [h4] at m7' m9
  refine ⟨{ workspace with
    normalized := normalized', qkv, attentionOutput, attentionScores, mlpHidden := geluInPlace mlpHidden
    projected := projected', residual := residual' }, ?_, rfl, ?_, m9, m2⟩
  · simp only [forwardLayer, hw, e1, e2, e3, e4, e5, e6, e7, e8, e9, keep_ok, ok_bind, pure_ok]
  · exact ⟨m9.1, m6.1, m2.1, m3.1, m8.1, m7'.1, hscores, hs.logits⟩

/-! ## The whole pass -/

/-- The token lists `forward` accepts. -/
structure Accepted (config : ModelConfig) (tokens : List Int32) : Prop where
  nonempty : tokens ≠ []
  length_le : tokens.length ≤ config.maxSequenceLength.toNat
  valid : ∀ t ∈ tokens, TokenValid config t

theorem Accepted.toNat_length {config : ModelConfig} {tokens : List Int32} (h : Accepted config tokens) :
    (UInt64.ofNat tokens.length).toNat = tokens.length :=
  toNat_ofNat_of_lt (Nat.lt_of_le_of_lt h.length_le (toNat_lt _))

theorem Accepted.rowsFit {config : ModelConfig} {tokens : List Int32} (h : Accepted config tokens) (hsz : config.Sizes) :
    RowsFit config (UInt64.ofNat tokens.length) := by
  refine hsz.rowsFit ?_ ?_
  · rw [h.toNat_length]
    exact List.length_pos_iff.2 h.nonempty
  · rw [h.toNat_length]
    exact h.length_le

theorem Accepted.not_guard {config : ModelConfig} {tokens : List Int32} (h : Accepted config tokens) :
    ¬(tokens = [] ∨ config.maxSequenceLength.toNat < tokens.length) := by
  rintro (h0 | hlt)
  · exact h.nonempty h0
  · exact Nat.not_lt_of_le h.length_le hlt

theorem validateTokens_ok {config : ModelConfig} {tokens : List Int32} (h : Accepted config tokens) :
    validateTokens config tokens = .ok () := by
  rw [validateTokens, throwIf_of_not h.not_guard, ok_bind, forM_validateToken, throwIf_of_not (not_not.2 h.valid)]

theorem validateTokens_rejects {config : ModelConfig} {tokens : List Int32} (h : ¬Accepted config tokens) :
    ∃ text, validateTokens config tokens = .error (.invalidArgument text) := by
  by_cases hlen : tokens = [] ∨ config.maxSequenceLength.toNat < tokens.length
  · exact ⟨_, by rw [validateTokens, throwIf_of hlen, error_bind]⟩
  · have hval : ¬∀ t ∈ tokens, TokenValid config t := fun hval =>
      h ⟨fun h0 => hlen (.inl h0), Nat.le_of_not_lt fun hlt => hlen (.inr hlt), hval⟩
    exact ⟨_, by rw [validateTokens, throwIf_of_not hlen, ok_bind, forM_validateToken, throwIf_of hval]⟩

/-- A rejected token list does not reach the workspace. -/
theorem forward_of_rejected {model : GPT2Model α} {tokens : List Int32} {e : Exc}
    (h : validateTokens model.weights.config tokens = .error e) (workspace : InferenceWorkspace α) :
    model.forward tokens workspace = .error (e, workspace) := by
  simp only [GPT2Model.forward, GPT2Model.forwardThrough, h, keep_error, error_bind]

/-- One more pass. -/
theorem GPT2Model.forwardThrough_succ (model : GPT2Model α) (tokens : List Int32) (count : Nat) (workspace : InferenceWorkspace α) :
    model.forwardThrough tokens (count + 1) workspace =
      model.forwardThrough tokens count workspace >>=
        forwardLayer model.weights (UInt64.ofNat tokens.length) model.weights.config.channels (3 * model.weights.config.channels)
          (4 * model.weights.config.channels) (UInt64.ofNat count) := by
  have hsz := model.wellFormed.sizes
  have hc3 := hsz.checked_c3 "forward 3 * channels"
  have hc4 := hsz.checked_c4 "forward 4 * channels"
  simp only [forwardThrough, hc3, hc4, forSize, forN, keep_ok, ok_bind, bind_assoc]

/-- What the workspace holds after `count` layers: the residual of the network, and in the qkv buffer the
activations of the last of these layers. -/
structure InferenceWorkspace.After (workspace : InferenceWorkspace α) (model : GPT2Model α) (tokens : List Int32) (count : Nat) :
    Prop where
  sequenceLength : workspace.sequenceLength.toNat = tokens.length
  sized : workspace.Sized tokens.length model.weights.config.channels.toNat model.weights.config.paddedVocabularySize.toNat
  residual : IsMat workspace.residual tokens.length model.weights.config.channels.toNat
    (model.network.residual (tokenAt tokens) count)
  qkv : ∀ l, count = l + 1 → IsMat workspace.qkv tokens.length (3 * model.weights.config.channels.toNat)
    (model.network.qkv (tokenAt tokens) l)

/-- **The layer loop computes the network**, layer by layer, from any workspace. -/
theorem forwardThrough_ok {model : GPT2Model α} {tokens : List Int32} (h : Accepted model.weights.config tokens)
    (workspace : InferenceWorkspace α) :
    ∀ {count : Nat}, count ≤ model.weights.config.numLayers.toNat →
      ∃ ws, model.forwardThrough tokens count workspace = .ok ws ∧ ws.After model tokens count
  | 0, _ => by
    have hw := model.wellFormed
    have hsz := hw.sizes
    have hn := h.toNat_length
    obtain ⟨ws, e0, hseq, hs⟩ := workspace.resize_ok hw.valid (h.rowsFit hsz)
    rw [hn] at hs
    obtain ⟨wte, ewte, mwte⟩ := model.wte_ok
    obtain ⟨wpe, ewpe, mwpe⟩ := model.wpe_ok
    obtain ⟨residual, eres, mres⟩ := embed_ok h.valid h.length_le mwte mwpe hs.residual
    have hc3 := hsz.checked_c3 "forward 3 * channels"
    have hc4 := hsz.checked_c4 "forward 4 * channels"
    refine ⟨{ ws with residual }, ?_, ?_⟩
    · simp only [GPT2Model.forwardThrough, validateTokens_ok h, e0, ewte, ewpe, eres, hc3, hc4, forSize, forN_zero, keep_ok, ok_bind]
    · refine ⟨?_, { hs with residual := mres.1 }, mres, fun l hl => absurd hl (Nat.succ_ne_zero l).symm⟩
      show ws.sequenceLength.toNat = _
      rw [hseq, hn]
  | count + 1, hcount => by
    obtain ⟨ws, hok, hafter⟩ := forwardThrough_ok h workspace (Nat.le_of_succ_le hcount)
    have hn := h.toNat_length
    obtain ⟨ws', hlayer, hseq, hs, hres, hqkv⟩ := forwardLayer_ok hcount (h.rowsFit model.wellFormed.sizes)
      (hn ▸ hafter.sized) (hn ▸ hafter.residual)
    rw [hn] at hs hres hqkv
    refine ⟨ws', by rw [GPT2Model.forwardThrough_succ, hok, ok_bind, hlayer], ?_, hs, hres, ?_⟩
    · rw [hseq, hafter.sequenceLength]
    · rintro l hl
      obtain rfl := Nat.succ.inj hl
      exact hqkv

/-- **The forward pass computes the network** from any workspace. -/
theorem forward_ok {model : GPT2Model α} {tokens : List Int32} (h : Accepted model.weights.config tokens)
    (workspace : InferenceWorkspace α) :
    ∃ ws, model.forward tokens workspace = .ok ws ∧ ws.sequenceLength.toNat = tokens.length ∧
      IsMat ws.logits tokens.length model.weights.config.paddedVocabularySize.toNat
        (model.network.logit (tokenAt tokens)) := by
  have hsz := model.wellFormed.sizes
  have hn := h.toNat_length
  obtain ⟨-, -, hRC, hRV⟩ := h.rowsFit hsz
  have hVC := hsz.vocabulary_lt
  obtain ⟨ws, hthrough, hseq, hs, hres, -⟩ := forwardThrough_ok h workspace (Nat.le_refl _)
  rw [← hn] at hs hres
  obtain ⟨wte, ewte, mwte⟩ := model.wte_ok
  obtain ⟨lnfw, elnfw, mlnfw⟩ := model.lnfw_ok
  obtain ⟨lnfb, elnfb, mlnfb⟩ := model.lnfb_ok
  obtain ⟨normalized, e3, m3⟩ := layerNorm_ok (by omega) hsz.channels hs.normalized hres mlnfw mlnfb
  obtain ⟨logits, e4, m4⟩ := linear_ok model.weights.config.channels model.weights.config.paddedVocabularySize
    (by omega) (by omega) (by omega) hs.logits m3 mwte (.inl ⟨rfl, rfl⟩)
  have hfinal : ¬ws.residual.length ≠ (UInt64.ofNat tokens.length * model.weights.config.channels).toNat := by
    rw [not_not, toNat_mul_of_lt (by omega)]
    exact hs.residual
  refine ⟨{ ws with normalized, logits }, ?_, hseq, ?_⟩
  · simp only [GPT2Model.forward, hthrough, GPT2Model.forwardEnd, ewte, elnfw, elnfb, e3, e4, throwIf_of_not hfinal, keep_ok,
      ok_bind, pure_ok]
  · rw [hn] at m4
    exact m4

/-- The other token lists are rejected, and the workspace is untouched. -/
theorem forward_rejects {model : GPT2Model α} {tokens : List Int32} (h : ¬Accepted model.weights.config tokens)
    (workspace : InferenceWorkspace α) :
    ∃ text, model.forward tokens workspace = .error (.invalidArgument text, workspace) := by
  obtain ⟨text, herr⟩ := validateTokens_rejects h
  exact ⟨text, forward_of_rejected herr workspace⟩

/-- **Acceptance** depends on the tokens and the configuration alone. -/
theorem forward_ok_iff (model : GPT2Model α) (tokens : List Int32) (workspace : InferenceWorkspace α) :
    (∃ ws, model.forward tokens workspace = .ok ws) ↔ Accepted model.weights.config tokens := by
  constructor
  · rintro ⟨ws, hws⟩
    by_contra h
    obtain ⟨text, herr⟩ := forward_rejects h workspace
    rw [hws] at herr
    exact absurd herr (by simp)
  · intro h
    obtain ⟨ws, hws, -⟩ := forward_ok h workspace
    exact ⟨ws, hws⟩

theorem Accepted.take {config : ModelConfig} {tokens : List Int32} (h : Accepted config tokens) {m : Nat} (hm : 0 < m) :
    Accepted config (tokens.take m) where
  nonempty := by
    have := List.length_pos_iff.2 h.nonempty
    rw [← List.length_pos_iff, List.length_take]; omega
  length_le := by have := h.length_le; rw [List.length_take]; omega
  valid t ht := h.valid t (List.mem_of_mem_take ht)

omit [Scalar α] in
/-- The real logits of the last of `n` rows. -/
theorem lastRealLogits_ok {config : ModelConfig} {logits : List α} {n : Nat} {f : Nat → Nat → α} (hv : config.Valid)
    (h : IsMat logits n config.paddedVocabularySize.toNat f) (hn : 0 < n) :
    lastRealLogits config logits = .ok ((List.range config.vocabularySize.toNat).map (f (n - 1))) := by
  have hrow : n - 1 < n := by omega
  have hle := row_end_le (C := config.paddedVocabularySize.toNat) hrow
  have hlast : n * config.paddedVocabularySize.toNat - config.paddedVocabularySize.toNat =
      (n - 1) * config.paddedVocabularySize.toNat := by rw [Nat.sub_mul, Nat.one_mul]
  have hlen : (logits.drop ((n - 1) * config.paddedVocabularySize.toNat)).length = config.paddedVocabularySize.toNat := by
    rw [List.length_drop, h.1, ← hlast]; omega
  have hpad := hv.padded_ge
  rw [lastRealLogits, last_ok (by rw [h.1]; omega), ok_bind, h.1, hlast, first_ok (by rw [hlen]; exact hpad)]
  refine congrArg Except.ok (IsVec.eq_map ⟨by rw [List.length_take, hlen]; omega, fun v hv => ?_⟩)
  rw [List.getElem?_take_of_lt hv, List.getElem?_drop]
  exact h.2 _ hrow v (by omega)

/-! ## The definition and causality -/

/-- **`forward` is GPT-2 by index**: logit `v` after position `t` is the network's, the weights being
the entries of the named tensors at their declared row-major indices. -/
theorem forward_eq_network (model : GPT2Model α) (tokens : List Int32) (workspace result : InferenceWorkspace α)
    (h : model.forward tokens workspace = .ok result) :
    result.logits.length = tokens.length * model.weights.config.paddedVocabularySize.toNat ∧
      ∀ t, t < tokens.length → ∀ v, v < model.weights.config.paddedVocabularySize.toNat →
        result.logits[t * model.weights.config.paddedVocabularySize.toNat + v]? =
          some (model.network.logit (tokenAt tokens) t v) := by
  obtain ⟨ws, hws, -, hlogits⟩ := forward_ok ((forward_ok_iff model tokens workspace).1 ⟨result, h⟩) workspace
  rw [h, Except.ok.injEq] at hws
  subst hws
  exact hlogits

theorem tinyModel_accepts : Accepted tinyModel.weights.config [0, 1] := by
  refine ⟨by simp, by decide, ?_⟩
  intro t ht
  simp only [List.mem_cons, List.not_mem_nil, or_false] at ht
  rcases ht with rfl | rfl <;> decide

theorem pairConfig_accepts : Accepted pairConfig [0, 1] := by
  refine ⟨by simp, by decide, ?_⟩
  intro t ht
  rcases List.mem_pair.1 ht with rfl | rfl <;> decide

theorem forward_eq_network_tiny : ∃ result, tinyModel.forward [0, 1] .empty = .ok result ∧ result.logits.length = 4 ∧
    result.logits[3]? = some (tinyModel.network.logit (tokenAt [0, 1]) 1 1) := by
  obtain ⟨result, hok, -⟩ := forward_ok tinyModel_accepts .empty
  obtain ⟨hlen, hget⟩ := forward_eq_network tinyModel [0, 1] .empty result hok
  exact ⟨result, hok, hlen, hget 1 (by decide) 1 (by decide)⟩

/-- **Causality**: the first `m` rows of logits are those of the first `m` tokens alone, so they are the
same for every accepted list with these tokens. -/
theorem forward_causal (model : GPT2Model α) (tokens : List Int32) (workspace result : InferenceWorkspace α)
    (h : model.forward tokens workspace = .ok result) (m : Nat) (hm : 1 ≤ m) (hle : m ≤ tokens.length) :
    (∀ workspace', ∃ result', model.forward (tokens.take m) workspace' = .ok result' ∧
      result'.logits = result.logits.take (m * model.weights.config.paddedVocabularySize.toNat)) ∧
    ∀ tokens' workspace' result', m ≤ tokens'.length → tokens'.take m = tokens.take m →
      model.forward tokens' workspace' = .ok result' →
      result'.logits.take (m * model.weights.config.paddedVocabularySize.toNat) =
        result.logits.take (m * model.weights.config.paddedVocabularySize.toNat) := by
  have hacc := (forward_ok_iff model tokens workspace).1 ⟨result, h⟩
  -- the first `m` rows of any accepted list with these tokens
  have hrows : ∀ tokens' workspace' result', m ≤ tokens'.length → tokens'.take m = tokens.take m →
      model.forward tokens' workspace' = .ok result' →
      IsMat (result'.logits.take (m * model.weights.config.paddedVocabularySize.toNat)) m
        model.weights.config.paddedVocabularySize.toNat (model.network.logit (tokenAt tokens)) := by
    intro tokens' workspace' result' hm' htake hok
    obtain ⟨ws, hws, -, hlogits⟩ := forward_ok ((forward_ok_iff model tokens' workspace').1 ⟨result', hok⟩) workspace'
    rw [hok, Except.ok.injEq] at hws
    subst hws
    refine (hlogits.take_rows hm').congr fun t ht v _ => model.network.logit_congr (fun s hs => ?_) v
    have hs' : s < m := by omega
    rw [← tokenAt_take hs', htake, tokenAt_take hs']
  have hself := hrows tokens workspace result hle rfl h
  refine ⟨fun workspace' => ?_, fun tokens' workspace' result' hm' htake hok =>
    (hrows tokens' workspace' result' hm' htake hok).unique hself⟩
  have hlen : (tokens.take m).length = m := by rw [List.length_take]; omega
  obtain ⟨result', hok, -, hlogits⟩ := forward_ok (hacc.take hm) workspace'
  rw [hlen] at hlogits
  refine ⟨result', hok, ?_⟩
  have := hrows (tokens.take m) workspace' result' (by omega) (by rw [List.take_take, Nat.min_self]) hok
  rw [← this.unique hself, List.take_of_length_le (by rw [hlogits.1])]

theorem forward_causal_tiny : ∃ result result', tinyModel.forward [0, 1] .empty = .ok result ∧
    tinyModel.forward [0] .empty = .ok result' ∧ result'.logits = result.logits.take 2 := by
  obtain ⟨result, hok, -⟩ := forward_ok tinyModel_accepts .empty
  obtain ⟨result', hok', hlogits⟩ := (forward_causal tinyModel [0, 1] .empty result hok 1 (by decide) (by decide)).1 .empty
  exact ⟨result, result', hok, hok', hlogits⟩

end Gpt2Runtime
