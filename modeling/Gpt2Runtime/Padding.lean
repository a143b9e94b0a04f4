import Gpt2Runtime.SessionRuns
/-
# Vocabulary padding is irrelevant

Two models that differ only in `padded_vocabulary_size` and in the `wte` rows beyond the vocabulary
have different offsets for fifteen tensors and different strides for the logits. Their networks agree
on everything inference reads (`Network.AgreesBelow`), so forward passes agree on the real logits
and sessions answer alike.
-/

namespace Gpt2Runtime

open Loop Flat Word Kernels Refine

variable {α : Type} [Scalar α]

/-! ## Networks -/

/-- The same network up to the embedding rows from `V` on. -/
structure Network.AgreesBelow (V : Nat) (N N' : Network α) : Prop where
  layers : N.layers = N'.layers
  heads : N.heads = N'.heads
  channels : N.channels = N'.channels
  heads_dvd : N.heads ∣ N.channels
  wte : ∀ v, v < V → ∀ c, c < N.channels → N.wte v c = N'.wte v c
  wpe : N.wpe = N'.wpe
  layer : N.layer = N'.layer
  lnfw : N.lnfw = N'.lnfw
  lnfb : N.lnfb = N'.lnfb

theorem qkvRow_congr {C : Nat} {w : LayerWeights α} {x x' : Nat → α} (hx : ∀ c, c < C → x c = x' c) (o : Nat) :
    qkvRow C w x o = qkvRow C w x' o :=
  linearRow_congr (fun _ hi => layerNormRow_congr hx (fun _ _ => rfl) (fun _ _ => rfl) hi) (fun _ _ => rfl) rfl

theorem finishLayer_congr {C : Nat} {w : LayerWeights α} {x x' a a' : Nat → α} (hx : ∀ c, c < C → x c = x' c)
    (ha : ∀ c, c < C → a c = a' c) {c : Nat} (hc : c < C) : finishLayer C w x a c = finishLayer C w x' a' c := by
  have hres : ∀ c, c < C → attResidual C w x a c = attResidual C w x' a' c := by
    intro c hc
    simp only [attResidual, hx c hc, linearRow_congr ha (fun _ _ => rfl) rfl]
  have hhidden : ∀ o, mlpHidden C w (attResidual C w x a) o = mlpHidden C w (attResidual C w x' a') o := by
    intro o
    have := linearRow_congr (w := w.fcw) (b := w.fcb) (o := o)
      (fun i hi => layerNormRow_congr (w := w.ln2w) (b := w.ln2b) hres (fun _ _ => rfl) (fun _ _ => rfl) hi)
      (fun _ _ => rfl) rfl
    simp only [mlpHidden, this]
  simp only [finishLayer, mlpResidual, hres c hc, linearRow_congr (fun i _ => hhidden i) (fun _ _ => rfl) rfl]

theorem block_congr {C H : Nat} (hH : H ∣ C) {w : LayerWeights α} {x x' : Nat → Nat → α}
    (hx : ∀ t c, c < C → x t c = x' t c) (t : Nat) {c : Nat} (hc : c < C) : block C H w x t c = block C H w x' t c := by
  refine finishLayer_congr (hx t) (fun c hc => ?_) hc
  exact attentionRow_congr hH hc (fun i _ => qkvRow_congr (hx t) i) (fun s _ i _ => qkvRow_congr (hx s) _)
    fun s _ i _ => qkvRow_congr (hx s) _

/-- For tokens below `V` the residuals are the same on their channels. -/
theorem Network.AgreesBelow.residual {V : Nat} {N N' : Network α} (h : N.AgreesBelow V N') {tok : Nat → Nat}
    (htok : ∀ t, tok t < V) (l t : Nat) {c : Nat} (hc : c < N.channels) : N.residual tok l t c = N'.residual tok l t c := by
  induction l generalizing t c with
  | zero => simp only [Network.residual, h.wte _ (htok t) c hc, h.wpe]
  | succ l ih =>
    simp only [Network.residual, ← h.heads, ← h.channels, ← h.layer]
    exact block_congr h.heads_dvd (fun t c hc => ih t hc) t hc

theorem Network.AgreesBelow.logit {V : Nat} {N N' : Network α} (h : N.AgreesBelow V N') {tok : Nat → Nat}
    (htok : ∀ t, tok t < V) (t : Nat) {v : Nat} (hv : v < V) : N.logit tok t v = N'.logit tok t v := by
  simp only [Network.logit, ← h.channels, ← h.layers, ← h.lnfw, ← h.lnfb]
  exact linearRow_congr (fun i hi => layerNormRow_congr (fun c hc => h.residual htok N.layers t hc) (fun _ _ => rfl)
    (fun _ _ => rfl) hi) (fun i hi => h.wte v hv i hi) rfl

/-! ## Models -/

/-- The same configuration but for the padding, and the same named tensors but for the `wte` rows
beyond the vocabulary. -/
structure GPT2Model.SameButPadding (A B : GPT2Model α) : Prop where
  config : B.weights.config =
    { A.weights.config with paddedVocabularySize := B.weights.config.paddedVocabularySize }
  tensors : ∀ name, name ≠ "wte" → A.weights.tensor name = B.weights.tensor name
  rows : ∀ view view', A.weights.tensor "wte" = .ok view → B.weights.tensor "wte" = .ok view' →
    ∀ i, i < A.weights.config.vocabularySize.toNat * A.weights.config.channels.toNat →
      view.values[i]? = view'.values[i]?

namespace GPT2Model.SameButPadding

variable {A B : GPT2Model α}

theorem dims (h : A.SameButPadding B) :
    B.weights.config.maxSequenceLength = A.weights.config.maxSequenceLength ∧
      B.weights.config.vocabularySize = A.weights.config.vocabularySize ∧
      B.weights.config.numLayers = A.weights.config.numLayers ∧
      B.weights.config.numHeads = A.weights.config.numHeads ∧
      B.weights.config.channels = A.weights.config.channels := by
  have hc := h.config
  cases hA : A.weights.config
  cases hB : B.weights.config
  rw [hA, hB] at hc
  simp only [ModelConfig.mk.injEq] at hc
  obtain ⟨h1, h2, -, h3, h4, h5⟩ := hc
  exact ⟨h1, h2, h3, h4, h5⟩

theorem entry (h : A.SameButPadding B) (name : String) (hne : name ≠ "wte") (index : List Nat) :
    A.weights.entry name index = B.weights.entry name index := by
  simp only [ModelWeights.entry, h.tensors name hne]

/-- Different offsets, the same network below the vocabulary. -/
theorem agrees (h : A.SameButPadding B) :
    A.network.AgreesBelow A.weights.config.vocabularySize.toNat B.network := by
  obtain ⟨hT, hV, hL, hH, hC⟩ := h.dims
  obtain ⟨view, ew, mw⟩ := A.wte_ok
  obtain ⟨view', ew', mw'⟩ := B.wte_ok
  refine ⟨?_, ?_, ?_, A.wellFormed.valid.heads_dvd, ?_, ?_, ?_, ?_, ?_⟩
  · simp only [GPT2Model.network, hL]
  · simp only [GPT2Model.network, hH]
  · simp only [GPT2Model.network, hC]
  · intro v hv c hc
    have hc' : c < A.weights.config.channels.toNat := hc
    have hrow := h.rows view view' ew ew' _ (idx_lt hv hc')
    have hpad := B.wellFormed.valid.padded_ge
    rw [mw.2 v (Nat.lt_of_lt_of_le hv A.wellFormed.valid.padded_ge) c hc', ← hC,
      mw'.2 v (Nat.lt_of_lt_of_le (by rw [hV]; exact hv) hpad) c (by rw [hC]; exact hc')] at hrow
    exact Option.some.inj hrow
  · funext t c
    exact h.entry _ (by decide) _
  · funext l
    simp only [GPT2Model.network, h.entry "ln1w" (by decide), h.entry "ln1b" (by decide),
      h.entry "qkvw" (by decide), h.entry "qkvb" (by decide),
      h.entry "attprojw" (by decide), h.entry "attprojb" (by decide),
      h.entry "ln2w" (by decide), h.entry "ln2b" (by decide),
      h.entry "fcw" (by decide), h.entry "fcb" (by decide),
      h.entry "fcprojw" (by decide), h.entry "fcprojb" (by decide)]
  · funext c
    exact h.entry _ (by decide) _
  · funext c
    exact h.entry _ (by decide) _

theorem accepted (h : A.SameButPadding B) (tokens : List Int32) :
    Accepted A.weights.config tokens ↔ Accepted B.weights.config tokens := by
  obtain ⟨hT, hV, -⟩ := h.dims
  constructor
  · rintro ⟨h1, h2, h3⟩
    exact ⟨h1, by rw [hT]; exact h2, fun t ht => ⟨(h3 t ht).1, by rw [hV]; exact (h3 t ht).2⟩⟩
  · rintro ⟨h1, h2, h3⟩
    exact ⟨h1, by rw [← hT]; exact h2, fun t ht => ⟨(h3 t ht).1, by rw [← hV]; exact (h3 t ht).2⟩⟩

end GPT2Model.SameButPadding

/-- IDs of a list over the vocabulary stay below it at every position. -/
theorem tokenAt_lt {config : ModelConfig} {tokens : List Int32} (hV : 0 < config.vocabularySize.toNat)
    (h : ∀ t ∈ tokens, TokenValid config t) (p : Nat) : tokenAt tokens p < config.vocabularySize.toNat := by
  by_cases hp : p < tokens.length
  · simp only [tokenAt, List.getD_eq_getElem?_getD, List.getElem?_eq_getElem hp, Option.getD_some]
    exact (h _ (List.getElem_mem hp)).2
  · simp only [tokenAt, List.getD_eq_getElem?_getD, List.getElem?_eq_none (by omega : tokens.length ≤ p), Option.getD_none]
    exact hV

namespace GPT2Model.SameButPadding

variable {A B : GPT2Model α}

open InferenceSession

theorem machine_logits_eq (h : A.SameButPadding B) (capacity : UInt64) {P : List Int32}
    (hP : ∀ t ∈ P, TokenValid A.weights.config t) :
    (A.machine capacity).logits P = (B.machine capacity).logits P := by
  obtain ⟨-, hV, -⟩ := h.dims
  simp only [GPT2Model.machine, hV]
  refine List.map_congr_left fun v hv => ?_
  exact h.agrees.logit (tokenAt_lt A.wellFormed.valid.vocabularySize hP) _ (List.mem_range.1 hv)

/-- Both machines take the same step. -/
theorem machine_step_eq (h : A.SameButPadding B) (capacity : UInt64) {P : List Int32}
    (hP : ∀ t ∈ P, TokenValid A.weights.config t) (request : Request) :
    (A.machine capacity).step P request = (B.machine capacity).step P request ∧
      ∀ t ∈ ((A.machine capacity).step P request).2, TokenValid A.weights.config t := by
  obtain ⟨-, hV, hL, -⟩ := h.dims
  have hlayers : (B.machine capacity).layers = (A.machine capacity).layers := congrArg UInt64.toNat hL
  have hvocab : (B.machine capacity).vocabulary = (A.machine capacity).vocabulary := congrArg UInt64.toNat hV
  have hcap : (B.machine capacity).capacity = (A.machine capacity).capacity := rfl
  cases request with
  | reset => exact ⟨rfl, by simp [TokenMachine.step]⟩
  | prefill prompt plan =>
    have hcheck : (B.machine capacity).checkPrefill P prompt = (A.machine capacity).checkPrefill P prompt := by
      simp only [TokenMachine.checkPrefill, hvocab, hcap]
    simp only [TokenMachine.step, hcheck, hlayers]
    have hok : ∀ u, ((A.machine capacity).checkPrefill P prompt >>= fun _ =>
        plan.tokens (A.machine capacity).layers prompt.length) = .ok u →
        ∀ t ∈ prompt, TokenValid A.weights.config t := by
      intro u hu
      obtain ⟨v, hv, -⟩ := bind_eq_ok.1 hu
      exact (TokenMachine.checkPrefill_ok_iff.1 hv).2.2.2
    exact ⟨TokenMachine.commit_congr fun u hu => h.machine_logits_eq capacity (hok u hu),
      TokenMachine.commit_keeps (Q := fun P => ∀ t ∈ P, TokenValid A.weights.config t) hP hok⟩
  | decode token plan =>
    have hcheck : (B.machine capacity).checkDecode P token = (A.machine capacity).checkDecode P token := by
      simp only [TokenMachine.checkDecode, hvocab, hcap]
    simp only [TokenMachine.step, hcheck, hlayers]
    have hok : ∀ u, ((A.machine capacity).checkDecode P token >>= fun _ =>
        plan.token (A.machine capacity).layers P.length) = .ok u →
        ∀ t ∈ P ++ [token], TokenValid A.weights.config t := by
      intro u hu t ht
      obtain ⟨v, hv, -⟩ := bind_eq_ok.1 hu
      rcases List.mem_append.1 ht with ht | ht
      · exact hP t ht
      · rw [List.mem_singleton.1 ht]
        exact (TokenMachine.checkDecode_ok_iff.1 hv).2.1
    exact ⟨TokenMachine.commit_congr fun u hu => h.machine_logits_eq capacity (hok u hu),
      TokenMachine.commit_keeps (Q := fun P => ∀ t ∈ P, TokenValid A.weights.config t) hP hok⟩

/-- New sessions on both models answer every sequence of calls alike. -/
theorem observe_eq (h : A.SameButPadding B) {capacity : UInt64} {s : InferenceSession A} {s' : InferenceSession B}
    (hs : make A capacity = .ok s) (hs' : make B capacity = .ok s') {calls : List (Call α)}
    (hcalls : ∀ c ∈ calls, c.Allows Planned) : (run observe s calls).1 = (run observe s' calls).1 := by
  obtain ⟨requests, hreqs⟩ := makes_all (fun executor (hA : Planned executor) => hA) hcalls
  rw [observe_run (make_holds hs).2 hreqs, observe_run (make_holds hs').2 hreqs]
  have hsame : List.Forall₂ Eq requests requests := List.forall₂_eq_eq_eq ▸ rfl
  refine (run_sim (R := fun P P' => P = P' ∧ ∀ t ∈ P, TokenValid A.weights.config t) ?_ hsame ⟨rfl, by simp⟩).1
  rintro P _ request _ ⟨rfl, hP⟩ rfl
  obtain ⟨hstep, hval⟩ := h.machine_step_eq capacity hP request
  rw [machineObserve, machineObserve, ← hstep]
  exact ⟨rfl, rfl, hval⟩

theorem make_eq_error (h : A.SameButPadding B) (capacity : UInt64) (e : Exc) :
    make A capacity = .error e ↔ make B capacity = .error e := by
  obtain ⟨hT, hV, hL, hH, hC⟩ := h.dims
  simp only [make, validateSessionCapacity, hT, hL, hC, bind_eq_error, pure_ok, reduceCtorEq, and_false, exists_false,
    or_false]

end GPT2Model.SameButPadding

/-- **Padding is irrelevant**: the same token lists are accepted, the real logits of every row are the
same, and so is everything a session returns. -/
theorem padding_irrelevant {A B : GPT2Model α} (h : A.SameButPadding B) :
    (∀ tokens workspace workspace',
      (∃ result, A.forward tokens workspace = .ok result) ↔ ∃ result', B.forward tokens workspace' = .ok result') ∧
    (∀ tokens workspace workspace' result result', A.forward tokens workspace = .ok result →
      B.forward tokens workspace' = .ok result' →
      ∀ t, t < tokens.length → ∀ v, v < A.weights.config.vocabularySize.toNat →
        result.logits[t * A.weights.config.paddedVocabularySize.toNat + v]? =
          result'.logits[t * B.weights.config.paddedVocabularySize.toNat + v]?) ∧
    (∀ capacity e, InferenceSession.make A capacity = .error e ↔ InferenceSession.make B capacity = .error e) ∧
    ∀ capacity s s', InferenceSession.make A capacity = .ok s → InferenceSession.make B capacity = .ok s' →
      ∀ calls : List (Call α), (∀ c ∈ calls, c.Allows Planned) →
        (run InferenceSession.observe s calls).1 = (run InferenceSession.observe s' calls).1 := by
  refine ⟨?_, ?_, h.make_eq_error, fun capacity s s' hs hs' calls hcalls => h.observe_eq hs hs' hcalls⟩
  · intro tokens workspace workspace'
    rw [forward_ok_iff, forward_ok_iff]
    exact h.accepted tokens
  · intro tokens workspace workspace' result result' hok hok' t ht v hv
    obtain ⟨-, hV, -⟩ := h.dims
    have hacc := (forward_ok_iff A tokens workspace).1 ⟨result, hok⟩
    obtain ⟨ws, hws, -, hm⟩ := forward_ok hacc workspace
    obtain ⟨ws', hws', -, hm'⟩ := forward_ok ((h.accepted tokens).1 hacc) workspace'
    rw [hok, Except.ok.injEq] at hws
    rw [hok', Except.ok.injEq] at hws'
    subst hws hws'
    rw [hm.2 t ht v (Nat.lt_of_lt_of_le hv A.wellFormed.valid.padded_ge),
      hm'.2 t ht v (Nat.lt_of_lt_of_le (by rw [hV]; exact hv) B.wellFormed.valid.padded_ge)]
    exact congrArg some (h.agrees.logit (tokenAt_lt A.wellFormed.valid.vocabularySize hacc.valid) t hv)

/-! ## Dropping the padded rows -/

open ParameterLayout

/-- Looking a name up in a list of tensors does not depend on where the list starts. -/
theorem find?_specsFrom_cases (name : String) (tensors : List (String × List UInt64)) :
    (∀ offset, (specsFrom offset tensors).find? (fun spec => spec.name = name) = none) ∨
      ∃ k dims, k + entryCount dims ≤ totalEntries tensors ∧
        ∀ offset, (specsFrom offset tensors).find? (fun spec => spec.name = name) =
          some (specAt (offset + k) name dims) := by
  induction tensors with
  | nil => exact .inl fun _ => rfl
  | cons t ts ih =>
    obtain ⟨n, dims⟩ := t
    by_cases hn : n = name
    · subst hn
      refine .inr ⟨0, dims, ?_, fun offset => ?_⟩
      · rw [totalEntries_cons, Nat.zero_add]
        exact Nat.le_add_right _ _
      · simp [specsFrom, specAt]
    · have hskip : ∀ offset, (specsFrom offset ((n, dims) :: ts)).find? (fun spec => spec.name = name) =
          (specsFrom (offset + entryCount dims) ts).find? (fun spec => spec.name = name) := by
        intro offset
        exact List.find?_cons_of_neg (by simpa using hn)
      rcases ih with hnone | ⟨k, dims', hle, hsome⟩
      · exact .inl fun offset => by rw [hskip, hnone]
      · refine .inr ⟨entryCount dims + k, dims', ?_, fun offset => ?_⟩
        · rw [totalEntries_cons]
          exact Nat.le_trans (Nat.le_of_eq (Nat.add_assoc _ _ _)) (Nat.add_le_add_left hle _)
        · rw [hskip, hsome, Nat.add_assoc]

/-- The fifteen tensors after `wte`. -/
def laterDimensions (config : ModelConfig) : List (String × List UInt64) :=
  (tensorDimensions config (3 * config.channels) (4 * config.channels)).tail

omit [Scalar α] in
/-- A tensor other than `wte` is a slice of what follows the `wte` rows. -/
theorem ModelWeights.WellFormed.tensor_later {weights : ModelWeights α} (h : weights.WellFormed) {rows rest : List α}
    (hs : weights.storage = rows ++ rest)
    (hrows : rows.length = weights.config.paddedVocabularySize.toNat * weights.config.channels.toNat)
    {name : String} (hne : name ≠ "wte") :
    weights.tensor name = (do
      let spec ← ParameterLayout.at? ⟨specsFrom 0 (laterDimensions weights.config), 0⟩ name
      let values ← subspan rest spec.offset spec.count
      TensorView.make values spec.shape spec.rank) := by
  have hfits := h.fits
  have hC := channels_le_parameterCount h.valid
  have htotal := totalEntries_tensorDimensions
    (show (3 * weights.config.channels).toNat = 3 * weights.config.channels.toNat from toNat_mul_eq rfl rfl (by omega))
    (show (4 * weights.config.channels).toNat = 4 * weights.config.channels.toNat from toNat_mul_eq rfl rfl (by omega))
  have hcons : tensorDimensions weights.config (3 * weights.config.channels) (4 * weights.config.channels) =
      ("wte", [weights.config.paddedVocabularySize, weights.config.channels]) :: laterDimensions weights.config := rfl
  have hwte : entryCount [weights.config.paddedVocabularySize, weights.config.channels] = rows.length := by
    rw [hrows]; simp [entryCount]
  rw [hcons, totalEntries_cons] at htotal
  simp only [hwte] at htotal
  have hat : weights.layout.at? name =
      ParameterLayout.at? ⟨specsFrom rows.length (laterDimensions weights.config), 0⟩ name := by
    simp only [h.layout, at?, layoutOf, hcons, specsFrom, hwte, Nat.zero_add]
    rw [List.find?_cons_of_neg (by simpa using hne.symm)]
  rw [ModelWeights.tensor, hat, hs]
  rcases find?_specsFrom_cases name (laterDimensions weights.config) with hnone | ⟨k, dims, hle, hsome⟩
  · simp only [at?, hnone, error_bind]
  · have ho : (specAt (rows.length + k) name dims).offset.toNat = rows.length + k := toNat_ofNat_of_lt (by omega)
    have ho' : (specAt (0 + k) name dims).offset.toNat = k := by
      rw [Nat.zero_add]; exact toNat_ofNat_of_lt (by omega)
    have hcount : (specAt (rows.length + k) name dims).count = (specAt (0 + k) name dims).count := rfl
    have hsub : subspan (rows ++ rest) (specAt (rows.length + k) name dims).offset
        (specAt (rows.length + k) name dims).count =
        subspan rest (specAt (0 + k) name dims).offset (specAt (0 + k) name dims).count := by
      rw [hcount, subspan, subspan, ho, ho', List.length_append, List.drop_append]
      have hdrop : rows.drop (rows.length + k) = [] := List.drop_eq_nil_of_le (Nat.le_add_right _ _)
      rw [hdrop, List.nil_append, Nat.add_sub_cancel_left]
      by_cases hfit : k + (specAt (0 + k) name dims).count.toNat ≤ rest.length
      · rw [if_pos hfit, if_pos (by omega)]
      · rw [if_neg hfit, if_neg (by omega)]
    simp only [at?, hsome, ok_bind, hsub]
    rfl

/-- A storage with other padded rows, or none, behind the same vocabulary rows gives the same model
but for the padding. -/
theorem GPT2Model.sameButPadding_of_storage {A B : GPT2Model α}
    (hconfig : B.weights.config =
      { A.weights.config with paddedVocabularySize := B.weights.config.paddedVocabularySize })
    {rows rows' rest : List α} (hA : A.weights.storage = rows ++ rest) (hB : B.weights.storage = rows' ++ rest)
    (hrows : rows.length = A.weights.config.paddedVocabularySize.toNat * A.weights.config.channels.toNat)
    (hrows' : rows'.length = B.weights.config.paddedVocabularySize.toNat * B.weights.config.channels.toNat)
    (hsame : rows.take (A.weights.config.vocabularySize.toNat * A.weights.config.channels.toNat) =
      rows'.take (A.weights.config.vocabularySize.toNat * A.weights.config.channels.toNat)) :
    A.SameButPadding B := by
  refine ⟨hconfig, fun name hne => ?_, fun view view' hview hview' i hi => ?_⟩
  · have hlater : laterDimensions B.weights.config = laterDimensions A.weights.config := by
      rw [hconfig]
      rfl
    rw [A.wellFormed.tensor_later hA hrows hne, B.wellFormed.tensor_later hB hrows' hne, hlater]
  · have hfirst : ∀ {M : GPT2Model α} {rows : List α} {view : TensorView α}, M.weights.storage = rows ++ rest →
        rows.length = M.weights.config.paddedVocabularySize.toNat * M.weights.config.channels.toNat →
        M.weights.tensor "wte" = .ok view → view.values = rows := by
      intro M rows view hM hlen hview
      obtain ⟨v, hv, hvals, -⟩ := M.wellFormed.tensor_ok
        (show M.weights.config.shapes = [] ++ ("wte", [_, _]) :: _ from rfl)
      rw [hview, Except.ok.injEq] at hv
      subst hv
      rw [hvals, hM]
      simp [shapeEntries, hlen]
    rw [hfirst hA hrows hview, hfirst hB hrows' hview', ← List.getElem?_take_of_lt hi, hsame,
      List.getElem?_take_of_lt hi]

/-- The tiny model in a version-3 checkpoint with one padded row. -/
def tinyPadded : GPT2Model Int :=
  .written 3 { tinyConfig with paddedVocabularySize := 3 } ([1, 1, 7] ++ List.replicate 29 1)
    (by refine ⟨⟨?_, ?_, ?_, ?_, ?_, ?_, ?_⟩, .inr rfl, ?_, ?_, ?_, ?_, ?_, ?_⟩ <;> decide) rfl (by decide)

theorem tinyPadded_sameButPadding : tinyPadded.SameButPadding tinyModel :=
  GPT2Model.sameButPadding_of_storage rfl
    (show tinyPadded.weights.storage = [1, 1, 7] ++ List.replicate 29 1 from rfl)
    (show tinyModel.weights.storage = [1, 1] ++ List.replicate 29 1 from rfl) rfl rfl rfl

theorem padding_irrelevant_tiny : ∃ result result', tinyPadded.forward [0, 1] .empty = .ok result ∧
    tinyModel.forward [0, 1] .empty = .ok result' ∧ result.logits[1 * 3 + 1]? = result'.logits[1 * 2 + 1]? := by
  obtain ⟨haccept, hlogits, -⟩ := padding_irrelevant tinyPadded_sameButPadding
  obtain ⟨result', hok', -⟩ := forward_ok tinyModel_accepts .empty
  obtain ⟨result, hok⟩ := (haccept [0, 1] .empty .empty).2 ⟨result', hok'⟩
  exact ⟨result, result', hok, hok', hlogits [0, 1] .empty .empty result result' hok hok' 1 (by decide) 1 (by decide)⟩

end Gpt2Runtime
