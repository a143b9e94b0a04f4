import Gpt2Runtime.GenerateMain
import Gpt2Runtime.Padding
import Gpt2Runtime.RealNetwork
/-
# What the outputs cannot show

Every reader of the residual standardizes it, so a number added to all channels of a position is never seen; and a
score that moves by the same amount for all sources leaves the softmax as it was, so the bias of the keys is never seen.
Two sets of weights that differ by such amounts only (`Network.Gauge`) make the same network over the reals: `forward`,
sessions and the generator return the same numbers (`gauge_invisible`).
-/

namespace Gpt2Runtime

open Loop Word Softmax Standardize Refine

/-! ## Rows -/

/-- The same row but for a number added to all channels. -/
def Shifted (C : Nat) (x x' : Nat → ℝ) : Prop := ∃ d, ∀ c, c < C → x' c = x c + d

theorem dotScore_shift {hs : Nat} {q k k' κ : Nat → ℝ} (h : ∀ i, i < hs → k' i = k i + κ i) :
    dotScore hs q k' = dotScore hs q k + dotScore hs q κ := by
  have hsum : ∑ i ∈ Finset.range hs, q i * k' i = ∑ i ∈ Finset.range hs, (q i * k i + q i * κ i) :=
    Finset.sum_congr rfl fun i hi => by rw [h i (Finset.mem_range.1 hi), mul_add]
  unfold dotScore
  rw [hsum, Finset.sum_add_distrib, add_div]

theorem Shifted.add {C : Nat} {x x' y y' : Nat → ℝ} (hx : Shifted C x x') (hy : Shifted C y y') :
    Shifted C (fun c => x c + y c) (fun c => x' c + y' c) := by
  obtain ⟨d, hd⟩ := hx
  obtain ⟨e, he⟩ := hy
  refine ⟨d + e, fun c hc => ?_⟩
  show x' c + y' c = x c + y c + (d + e)
  rw [hd c hc, he c hc]
  ring

section

variable [FloatReading]

theorem Shifted.layerNormRow {C : Nat} {x x' w w' b b' : Nat → ℝ} (h : Shifted C x x') (hw : ∀ c, c < C → w' c = w c)
    (hb : ∀ c, c < C → b' c = b c) {c : Nat} (hc : c < C) : layerNormRow C x' w' b' c = layerNormRow C x w b c := by
  obtain ⟨d, hd⟩ := h
  rw [layerNormRow_eq, layerNormRow_eq, hw c hc, hb c hc,
    standardize_shift (fun i hi => hd i (Finset.mem_range.1 hi)) (Finset.mem_range.2 hc)]

/-- A matrix whose columns are constant and a constant bias add the same number to all channels. -/
theorem linearRow_shifted {C n : Nat} {x x' : Nat → ℝ} {w w' : Nat → Nat → ℝ} {b b' a : Nat → ℝ} {β : ℝ}
    (hx : ∀ i, i < n → x' i = x i) (hw : ∀ o, o < C → ∀ i, i < n → w' o i = w o i + a i)
    (hb : ∀ o, o < C → b' o = b o + β) : Shifted C (linearRow n x w b) (linearRow n x' w' b') := by
  refine ⟨β + ∑ i ∈ Finset.range n, x i * a i, fun o ho => ?_⟩
  have hsum : ∑ i ∈ Finset.range n, x' i * w' o i = ∑ i ∈ Finset.range n, (x i * w o i + x i * a i) :=
    Finset.sum_congr rfl fun i hi => by rw [hx i (Finset.mem_range.1 hi), hw o ho i (Finset.mem_range.1 hi), mul_add]
  rw [linearRow_eq, linearRow_eq, hsum, hb o ho, Finset.sum_add_distrib]
  ring

/-- What is added to every key adds to all scores of a head alike. -/
theorem attentionRow_keys {n C H : Nat} (hn : 0 < n) (hH : H ∣ C) {q : Nat → ℝ} {k k' v : Nat → Nat → ℝ} {κ : Nat → ℝ}
    (hk : ∀ s, s < n → ∀ i, i < C → k' s i = k s i + κ i) {c : Nat} (hc : c < C) :
    attentionRow n C H q k' v c = attentionRow n C H q k v c := by
  unfold attentionRow
  simp only [attentionHead_eq_average hn]
  refine Finset.sum_congr rfl fun s hs => ?_
  congr 1
  exact weight_shift (fun s hs => dotScore_shift fun i hi => hk s (Finset.mem_range.1 hs) _ (head_channel_lt hH hc hi)) hs

end

/-! ## Layers -/

/-- The same layer but for the bias of the keys and, in the two projections onto the residual, for a matrix with
constant columns and a constant bias. -/
structure LayerWeights.Gauge (C : Nat) (w w' : LayerWeights ℝ) : Prop where
  ln1w : ∀ c, c < C → w'.ln1w c = w.ln1w c
  ln1b : ∀ c, c < C → w'.ln1b c = w.ln1b c
  qkvw : ∀ o, o < 3 * C → ∀ i, i < C → w'.qkvw o i = w.qkvw o i
  query : ∀ c, c < C → w'.qkvb c = w.qkvb c
  value : ∀ c, c < C → w'.qkvb (2 * C + c) = w.qkvb (2 * C + c)
  attproj : ∃ (a : Nat → ℝ) (β : ℝ), (∀ o, o < C → ∀ i, i < C → w'.attprojw o i = w.attprojw o i + a i) ∧
    ∀ o, o < C → w'.attprojb o = w.attprojb o + β
  ln2w : ∀ c, c < C → w'.ln2w c = w.ln2w c
  ln2b : ∀ c, c < C → w'.ln2b c = w.ln2b c
  fcw : ∀ o, o < 4 * C → ∀ i, i < C → w'.fcw o i = w.fcw o i
  fcb : ∀ o, o < 4 * C → w'.fcb o = w.fcb o
  fcproj : ∃ (a : Nat → ℝ) (β : ℝ), (∀ o, o < C → ∀ i, i < 4 * C → w'.fcprojw o i = w.fcprojw o i + a i) ∧
    ∀ o, o < C → w'.fcprojb o = w.fcprojb o + β

namespace LayerWeights.Gauge

variable [FloatReading] {C H : Nat} {w w' : LayerWeights ℝ}

/-- Queries and values are the same, keys move by the difference of the biases. -/
theorem qkvRow (h : w.Gauge C w') {x x' : Nat → ℝ} (hx : Shifted C x x') {c : Nat} (hc : c < C) :
    qkvRow C w' x' c = qkvRow C w x c ∧
      qkvRow C w' x' (C + c) = qkvRow C w x (C + c) + (w'.qkvb (C + c) - w.qkvb (C + c)) ∧
      qkvRow C w' x' (2 * C + c) = qkvRow C w x (2 * C + c) := by
  have hsum : ∀ o, o < 3 * C → ∑ i ∈ Finset.range C, layerNormRow C x' w'.ln1w w'.ln1b i * w'.qkvw o i =
      ∑ i ∈ Finset.range C, layerNormRow C x w.ln1w w.ln1b i * w.qkvw o i := by
    intro o ho
    refine Finset.sum_congr rfl fun i hi => ?_
    rw [hx.layerNormRow h.ln1w h.ln1b (Finset.mem_range.1 hi), h.qkvw o ho i (Finset.mem_range.1 hi)]
  unfold Gpt2Runtime.qkvRow
  simp only [linearRow_eq]
  rw [hsum c (by omega), hsum (C + c) (by omega), hsum (2 * C + c) (by omega), h.query c hc, h.value c hc]
  exact ⟨rfl, by ring, rfl⟩

/-- The attention outputs are the same. -/
theorem attend (h : w.Gauge C w') (hH : H ∣ C) {x x' : Nat → Nat → ℝ} {t : Nat} (hx : ∀ s, s ≤ t → Shifted C (x s) (x' s))
    {c : Nat} (hc : c < C) : attend C H (fun s => Gpt2Runtime.qkvRow C w' (x' s)) t c =
      attend C H (fun s => Gpt2Runtime.qkvRow C w (x s)) t c := by
  unfold Gpt2Runtime.attend
  refine (attentionRow_congr hH hc (fun i hi => (h.qkvRow (hx t (Nat.le_refl t)) hi).1)
    (fun s hs i hi => rfl) fun s hs i hi => (h.qkvRow (hx s (by omega)) hi).2.2).trans ?_
  exact attentionRow_keys (Nat.succ_pos t) hH (fun s hs i hi => (h.qkvRow (hx s (by omega)) hi).2.1) hc

theorem finishLayer (h : w.Gauge C w') {x x' a a' : Nat → ℝ} (hx : Shifted C x x') (ha : ∀ c, c < C → a' c = a c) :
    Shifted C (finishLayer C w x a) (finishLayer C w' x' a') := by
  obtain ⟨aw, aβ, haw, hab⟩ := h.attproj
  obtain ⟨fw, fβ, hfw, hfb⟩ := h.fcproj
  have hmiddle : Shifted C (attResidual C w x a) (attResidual C w' x' a') := hx.add (linearRow_shifted ha haw hab)
  have hhidden : ∀ o, o < 4 * C → mlpHidden C w' (attResidual C w' x' a') o = mlpHidden C w (attResidual C w x a) o := by
    intro o ho
    unfold mlpHidden
    rw [linearRow_congr (fun i hi => hmiddle.layerNormRow h.ln2w h.ln2b hi) (h.fcw o ho) (h.fcb o ho)]
  exact hmiddle.add (linearRow_shifted hhidden hfw hfb)

/-- **A layer keeps the residuals apart by shifts only.** -/
theorem block (h : w.Gauge C w') (hH : H ∣ C) {x x' : Nat → Nat → ℝ} {t : Nat} (hx : ∀ s, s ≤ t → Shifted C (x s) (x' s)) :
    Shifted C (block C H w x t) (block C H w' x' t) :=
  h.finishLayer (hx t (Nat.le_refl t)) fun _ hc => h.attend hH hx hc

end LayerWeights.Gauge

/-! ## Networks -/

/-- The same network on `T` positions and `V` tokens but for a number added to all channels of a position embedding and
for what its layers may differ in. -/
structure Network.Gauge (T V : Nat) (N N' : Network ℝ) : Prop where
  layers : N'.layers = N.layers
  heads : N'.heads = N.heads
  channels : N'.channels = N.channels
  heads_dvd : N.heads ∣ N.channels
  wte : ∀ v, v < V → ∀ c, c < N.channels → N'.wte v c = N.wte v c
  wpe : ∀ t, t < T → Shifted N.channels (N.wpe t) (N'.wpe t)
  layer : ∀ l, l < N.layers → (N.layer l).Gauge N.channels (N'.layer l)
  lnfw : ∀ c, c < N.channels → N'.lnfw c = N.lnfw c
  lnfb : ∀ c, c < N.channels → N'.lnfb c = N.lnfb c

namespace Network.Gauge

variable [FloatReading] {T V : Nat} {N N' : Network ℝ} {tok : Nat → Nat}

theorem residual (h : N.Gauge T V N') (htok : ∀ t, tok t < V) {l : Nat} (hl : l ≤ N.layers) {t : Nat} (ht : t < T) :
    Shifted N.channels (N.residual tok l t) (N'.residual tok l t) := by
  induction l generalizing t with
  | zero =>
    obtain ⟨d, hd⟩ := h.wpe t ht
    refine ⟨d, fun c hc => ?_⟩
    simp only [Network.residual]
    rw [h.wte _ (htok t) c hc, hd c hc, add_assoc]
  | succ l ih =>
    have hbefore : ∀ s, s ≤ t → Shifted N.channels (N.residual tok l s) (N'.residual tok l s) :=
      fun s hs => ih (Nat.le_of_succ_le hl) (Nat.lt_of_le_of_lt hs ht)
    simp only [Network.residual, h.heads, h.channels]
    exact (h.layer l hl).block h.heads_dvd hbefore

/-- **The logits are the same.** -/
theorem logit (h : N.Gauge T V N') (htok : ∀ t, tok t < V) {t : Nat} (ht : t < T) {v : Nat} (hv : v < V) :
    N'.logit tok t v = N.logit tok t v := by
  have hlast := h.residual htok (Nat.le_refl _) ht
  simp only [Network.logit, h.channels, h.layers]
  exact linearRow_congr (fun i hi => hlast.layerNormRow h.lnfw h.lnfb hi) (fun i hi => h.wte v hv i hi) rfl

end Network.Gauge

/-! ## Machines -/

namespace TokenMachine

variable {α : Type} {m m' : TokenMachine α}

/-- The machine may have consumed the tokens. -/
structure Admits (m : TokenMachine α) (P : List Int32) : Prop where
  valid : ∀ t ∈ P, InVocabulary m.vocabulary t
  length_le : P.length ≤ m.capacity

/-- Machines that differ in the logits of no admitted list take the same step. -/
theorem step_eq (hvocabulary : m'.vocabulary = m.vocabulary) (hlayers : m'.layers = m.layers) (hcapacity : m'.capacity = m.capacity)
    (hlogits : ∀ P, P ≠ [] → m.Admits P → m'.logits P = m.logits P) {P : List Int32} (hP : m.Admits P) (request : Request) :
    m'.step P request = m.step P request ∧ m.Admits (m.step P request).2 := by
  cases request with
  | reset => exact ⟨rfl, List.forall_mem_nil _, Nat.zero_le _⟩
  | prefill prompt plan =>
    have hcheck : m'.checkPrefill P prompt = m.checkPrefill P prompt := by
      simp only [checkPrefill, hvocabulary, hcapacity]
    have hok : ∀ u, (m.checkPrefill P prompt >>= fun _ => plan.tokens m.layers prompt.length) = .ok u →
        prompt ≠ [] ∧ m.Admits prompt := by
      intro u hu
      obtain ⟨v, hv, -⟩ := bind_eq_ok.1 hu
      obtain ⟨-, hne, hle, hvalid⟩ := checkPrefill_ok_iff.1 hv
      exact ⟨hne, hvalid, hle⟩
    simp only [step, hcheck, hlayers]
    exact ⟨commit_congr fun u hu => hlogits _ (hok u hu).1 (hok u hu).2, commit_keeps hP fun u hu => (hok u hu).2⟩
  | decode token plan =>
    have hcheck : m'.checkDecode P token = m.checkDecode P token := by
      simp only [checkDecode, hvocabulary, hcapacity]
    have hok : ∀ u, (m.checkDecode P token >>= fun _ => plan.token m.layers P.length) = .ok u → m.Admits (P ++ [token]) := by
      intro u hu
      obtain ⟨v, hv, -⟩ := bind_eq_ok.1 hu
      obtain ⟨-, htoken, hroom⟩ := checkDecode_ok_iff.1 hv
      refine ⟨fun t ht => ?_, ?_⟩
      · rcases List.mem_append.1 ht with ht | ht
        · exact hP.valid t ht
        · rw [List.mem_singleton.1 ht]
          exact htoken
      · have hle := hP.length_le
        rw [List.length_append, List.length_singleton]
        omega
    simp only [step, hcheck, hlayers]
    exact ⟨commit_congr fun u hu => hlogits _ (by simp) (hok u hu), commit_keeps hP fun u hu => hok u hu⟩

end TokenMachine

/-! ## Models -/

section

variable [FloatReading]

/-- Checkpoints of the same dimensions whose networks differ only in what cannot be seen. -/
structure GPT2Model.Gauge (A B : GPT2Model ℝ) : Prop where
  config : B.weights.config = A.weights.config
  network : A.network.Gauge A.weights.config.maxSequenceLength.toNat A.weights.config.paddedVocabularySize.toNat B.network

namespace GPT2Model.Gauge

variable {A B : GPT2Model ℝ}

theorem logit (h : A.Gauge B) {P : List Int32} (hP : ∀ t ∈ P, TokenValid A.weights.config t) {t : Nat}
    (ht : t < A.weights.config.maxSequenceLength.toNat) {v : Nat} (hv : v < A.weights.config.paddedVocabularySize.toNat) :
    B.network.logit (tokenAt P) t v = A.network.logit (tokenAt P) t v := by
  have hvalid := A.wellFormed.valid
  exact h.network.logit (fun p => Nat.lt_of_lt_of_le (tokenAt_lt hvalid.vocabularySize hP p) hvalid.padded_ge) ht hv

theorem forward (h : A.Gauge B) {tokens : List Int32} {workspace result : InferenceWorkspace ℝ}
    (hok : A.forward tokens workspace = .ok result) (workspace' : InferenceWorkspace ℝ) :
    ∃ result', B.forward tokens workspace' = .ok result' ∧ result'.logits = result.logits := by
  have hacc := (forward_ok_iff A tokens workspace).1 ⟨result, hok⟩
  obtain ⟨ws, hws, -, hm⟩ := forward_ok hacc workspace
  obtain ⟨ws', hws', -, hm'⟩ := forward_ok (show Accepted B.weights.config tokens by rw [h.config]; exact hacc) workspace'
  rw [hok, Except.ok.injEq] at hws
  subst hws
  rw [h.config] at hm'
  have hlength := hacc.length_le
  refine ⟨ws', hws', hm'.unique ⟨hm.1, fun t ht v hv => ?_⟩⟩
  rw [hm.2 t ht v hv, h.logit hacc.valid (by omega) hv]

theorem logits (h : A.Gauge B) {P : List Int32} (hacc : Accepted A.weights.config P) : B.logits P = A.logits P := by
  have hpadded := A.wellFormed.valid.padded_ge
  have hpos := List.length_pos_iff.2 hacc.nonempty
  have hlength := hacc.length_le
  show (List.range B.weights.config.vocabularySize.toNat).map _ = (List.range A.weights.config.vocabularySize.toNat).map _
  rw [h.config]
  refine List.map_congr_left fun v hv => h.logit hacc.valid (by omega) ?_
  exact Nat.lt_of_lt_of_le (List.mem_range.1 hv) hpadded

open InferenceSession in
/-- New sessions on both models answer every sequence of calls alike. -/
theorem observe_eq (h : A.Gauge B) {capacity : UInt64} {s : InferenceSession A} {s' : InferenceSession B}
    (hs : make A capacity = .ok s) (hs' : make B capacity = .ok s') {calls : List (Call ℝ)}
    (hcalls : ∀ c ∈ calls, c.Allows Planned) : (run observe s' calls).1 = (run observe s calls).1 := by
  obtain ⟨requests, hreqs⟩ := makes_all (fun executor (hA : Planned executor) => hA) hcalls
  obtain ⟨⟨-, hcontext, -⟩, hholds⟩ := make_holds hs
  rw [observe_run hholds hreqs, observe_run (make_holds hs').2 hreqs]
  have hsame : List.Forall₂ Eq requests requests := List.forall₂_eq_eq_eq ▸ rfl
  have hlogits : ∀ P, P ≠ [] → (A.machine capacity).Admits P → (B.machine capacity).logits P = (A.machine capacity).logits P :=
    fun P hne hP => h.logits ⟨hne, Nat.le_trans hP.length_le hcontext, hP.valid⟩
  refine (run_sim (R := fun P' P => P' = P ∧ (A.machine capacity).Admits P) ?_ hsame
    ⟨rfl, List.forall_mem_nil _, Nat.zero_le _⟩).1
  intro P' P request' request ⟨hsame, hP⟩ hrequest
  have hstep : (B.machine capacity).step P request = (A.machine capacity).step P request ∧
      (A.machine capacity).Admits ((A.machine capacity).step P request).2 :=
    TokenMachine.step_eq (congrArg (fun config => config.vocabularySize.toNat) h.config)
      (congrArg (fun config => config.numLayers.toNat) h.config)
      (show (B.machine capacity).capacity = (A.machine capacity).capacity from rfl) hlogits hP request
  rw [hsame, hrequest, machineObserve, machineObserve, hstep.1]
  exact ⟨rfl, rfl, hstep.2⟩

open Generate in
/-- What a run on one model is expected to leave is expected on the other. -/
theorem expected_eq (h : A.Gauge B) {files : Files} {options : Generate.Options} (husable : Usable options)
    {host : Host (Executor ℝ)} (hcompletes : Completes files host options A) (path : String) :
    expected { options with checkpoint := path } B = expected options A := by
  have hcontext := hcompletes.context
  obtain ⟨htokens, hlines⟩ := greedy_congr (fun P hP => h.logits hP) husable.tokens hcompletes.valid hcontext
  have hacc := greedy_accepted husable.tokens hcompletes.valid hcontext
  have hpadded : paddedLogits B (tokensAfter options A) = paddedLogits A (tokensAfter options A) := by
    have hpos := List.length_pos_iff.2 hacc.nonempty
    have hlength := hacc.length_le
    unfold paddedLogits
    rw [h.config]
    exact List.map_congr_left fun v hv => h.logit hacc.valid (by unfold tokensAfter; omega) (List.mem_range.1 hv)
  have hafter : tokensAfter { options with checkpoint := path } B = tokensAfter options A := htokens
  have hlast : B.logits (tokensAfter options A) = A.logits (tokensAfter options A) := h.logits hacc
  have hdumped : dumped { options with checkpoint := path } B = dumped options A := by
    unfold dumped
    rw [hafter, hpadded, hlast]
  unfold expected
  rw [hafter, hdumped]
  exact congrArg (fun steps => Output.mk _ steps _) hlines

end GPT2Model.Gauge

open InferenceSession Generate in
/-- **The bias of the keys and the mean of the residual are never seen.** Over the reals, two checkpoints that differ
only in the biases of the keys, in numbers added to all channels of a position embedding, and in constant columns and
constant biases of the two projections onto the residual cannot be told apart: `forward` leaves the same logits from any
workspace, sessions are made alike and answer every sequence of calls alike, failures included, and every run of the
generator prints the same tokens and dumps the same logits. -/
theorem gauge_invisible {A B : GPT2Model ℝ} (h : A.Gauge B) :
    (∀ tokens workspace workspace' result, A.forward tokens workspace = .ok result →
      ∃ result', B.forward tokens workspace' = .ok result' ∧ result'.logits = result.logits) ∧
    (∀ capacity s, make A capacity = .ok s → ∃ s', make B capacity = .ok s' ∧
      ∀ calls : List (Call ℝ), (∀ c ∈ calls, c.Allows Planned) → (run observe s' calls).1 = (run observe s calls).1) ∧
    ∀ (files : Files) (host : Host (Executor ℝ)) (options : Generate.Options) (path : String) (out : Output ℝ),
      host.Realizes → Usable options →
      Loads files options.checkpoint A → Loads files path B → generate files host options = .ok out →
      generate files host { options with checkpoint := path } = .ok out := by
  refine ⟨fun tokens workspace workspace' result hok => h.forward hok workspace', ?_, ?_⟩
  · intro capacity s hs
    obtain ⟨s', hs'⟩ := (make_ok_iff B capacity).2 (by rw [h.config]; exact (make_ok_iff A capacity).1 ⟨s, hs⟩)
    exact ⟨s', hs', fun calls hcalls => h.observe_eq hs hs' hcalls⟩
  · intro files host options path out hhost husable hloads hloads' hout
    have hserves := hhost.serves
    obtain ⟨model, hcompletes, rfl⟩ := (generate_ok_iff hserves husable).1 hout
    obtain rfl := hcompletes.loads.unique hloads
    have husable' : Usable { options with checkpoint := path } := ⟨husable.tokens, husable.threads⟩
    refine (generate_ok_iff hserves husable').2 ⟨B, ?_, (h.expected_eq husable hcompletes path).symm⟩
    obtain ⟨-, hvalid, hcontext, hroom, hcapacity, hexecutor, hdump⟩ := hcompletes
    rw [← h.config] at hvalid hcontext hroom hcapacity
    exact ⟨hloads', hvalid, hcontext, hroom, hcapacity, hexecutor, hdump⟩

end

/-! ## Two checkpoints -/

/-- The number of every parameter, and what is added to it. -/
def numberedPayload (added : Nat → Nat) : List (BitVec 32) := (List.range 86).map fun n => BitVec.ofNat 32 (n + added n)

theorem length_numberedPayload (added : Nat → Nat) :
    (numberedPayload added).length = ParameterLayout.parameterCount pairConfig := by
  rw [numberedPayload, List.length_map, List.length_range]
  rfl

section

variable [FloatReading]

noncomputable def numberedModel (added : Nat → Nat) : GPT2Model ℝ :=
  .written 1 pairConfig (numberedPayload added) pairConfig_writable (length_numberedPayload added)
    (by rw [length_numberedPayload]; decide)

/-- What is added to the parameter at `index` of tensor `k`. -/
def Moves (added : Nat → Nat) (k : Nat) (dims index : List Nat) (moved : Nat) : Prop :=
  rowMajor dims index < dims.prod ∧ added (shapeEntries (pairConfig.shapes.take k) + rowMajor dims index) = moved

instance (added : Nat → Nat) (k : Nat) (dims index : List Nat) (moved : Nat) : Decidable (Moves added k dims index moved) :=
  inferInstanceAs (Decidable (_ ∧ _))

variable (hplain : ∀ b, FloatReading.ofBits b = b.toNat) {added : Nat → Nat} (hsmall : ∀ n, added n ≤ 9)
  {name : String} {dims : List Nat} {k : Nat} (hname : pairConfig.shapes[k]? = some (name, dims))
include hplain hsmall hname

theorem numberedModel_entry {index : List Nat} {moved : Nat} (h : Moves added k dims index moved) :
    (numberedModel added).weights.entry name index =
      (shapeEntries (pairConfig.shapes.take k) + rowMajor dims index + moved : Nat) := by
  obtain ⟨hindex, hmoved⟩ := h
  have hsplit : pairConfig.shapes = pairConfig.shapes.take k ++ (name, dims) :: pairConfig.shapes.drop (k + 1) := by
    obtain ⟨hk, hget⟩ := List.getElem?_eq_some_iff.1 hname
    rw [← hget, List.cons_getElem_drop_succ, List.take_append_drop]
  have hentry := (numberedModel added).wellFormed.storage_entry (by exact hsplit) hindex
  generalize shapeEntries (pairConfig.shapes.take k) + rowMajor dims index = n at hentry hmoved ⊢
  have hstored : ((numberedPayload added).map Scalar.ofBits : List ℝ)[n]? =
      some ((numberedModel added).weights.entry name index) := hentry
  rw [List.getElem?_map, numberedPayload, List.getElem?_map] at hstored
  obtain ⟨b, hb, hstored⟩ := Option.map_eq_some_iff.1 hstored
  obtain ⟨m, hm, rfl⟩ := Option.map_eq_some_iff.1 hb
  obtain ⟨hn, hm⟩ := List.getElem?_eq_some_iff.1 hm
  rw [List.getElem_range] at hm
  subst hm
  rw [List.length_range] at hn
  have hbound := hsmall n
  rw [← hstored]
  show FloatReading.ofBits _ = _
  rw [hplain, BitVec.toNat_ofNat, Nat.mod_eq_of_lt (by omega), hmoved]

end

/-- The second position, the bias of the keys, a column and the bias of each projection onto the residual. -/
def gaugeAdded : Nat → Nat
  | 6 | 7 => 5
  | 26 => 9
  | 27 => 3
  | 30 | 32 => 4
  | 34 | 35 => 6
  | 67 | 75 => 2
  | 80 | 81 => 1
  | _ => 0

theorem gaugeAdded_le (n : Nat) : gaugeAdded n ≤ 9 := by
  unfold gaugeAdded
  split <;> decide

section

variable [FloatReading] (hplain : ∀ b, FloatReading.ofBits b = b.toNat)
include hplain

section

variable (name : String) {dims index : List Nat} {k : Nat} (hname : pairConfig.shapes[k]? = some (name, dims))
include hname

theorem gaugeAdded_moved {moved : Nat} (h : Moves gaugeAdded k dims index moved) :
    (numberedModel gaugeAdded).weights.entry name index = (numberedModel fun _ => 0).weights.entry name index + moved := by
  have hplace : Moves (fun _ => 0) k dims index 0 := ⟨h.1, rfl⟩
  rw [numberedModel_entry hplain gaugeAdded_le hname h, numberedModel_entry hplain (fun _ => Nat.zero_le _) hname hplace,
    Nat.add_zero, Nat.cast_add]

theorem gaugeAdded_same (h : Moves gaugeAdded k dims index 0) :
    (numberedModel gaugeAdded).weights.entry name index = (numberedModel fun _ => 0).weights.entry name index :=
  (gaugeAdded_moved hplain name hname h).trans (by rw [Nat.cast_zero, add_zero])

theorem gaugeAdded_ne {moved : Nat} (h : Moves gaugeAdded k dims index moved) (hmoved : moved ≠ 0) :
    (numberedModel fun _ => 0).weights.entry name index ≠ (numberedModel gaugeAdded).weights.entry name index := by
  rw [gaugeAdded_moved hplain name hname h]
  exact fun heq => hmoved (Nat.cast_eq_zero.1 (left_eq_add.1 heq))

end

theorem numberedModel_layer :
    ((numberedModel fun _ => 0).network.layer 0).Gauge 2 ((numberedModel gaugeAdded).network.layer 0) := by
  have hln1w : ∀ c, c < 2 → Moves gaugeAdded 2 [1, 2] [0, c] 0 := by decide
  have hln1b : ∀ c, c < 2 → Moves gaugeAdded 3 [1, 2] [0, c] 0 := by decide
  have hqkvw : ∀ o, o < 6 → ∀ i, i < 2 → Moves gaugeAdded 4 [1, 6, 2] [0, o, i] 0 := by decide
  have hquery : ∀ c, c < 2 → Moves gaugeAdded 5 [1, 6] [0, c] 0 := by decide
  have hvalue : ∀ c, c < 2 → Moves gaugeAdded 5 [1, 6] [0, 4 + c] 0 := by decide
  have hattprojw : ∀ o, o < 2 → ∀ i, i < 2 → Moves gaugeAdded 6 [1, 2, 2] [0, o, i] (if i = 0 then 4 else 0) := by decide
  have hattprojb : ∀ o, o < 2 → Moves gaugeAdded 7 [1, 2] [0, o] 6 := by decide
  have hln2w : ∀ c, c < 2 → Moves gaugeAdded 8 [1, 2] [0, c] 0 := by decide
  have hln2b : ∀ c, c < 2 → Moves gaugeAdded 9 [1, 2] [0, c] 0 := by decide
  have hfcw : ∀ o, o < 8 → ∀ i, i < 2 → Moves gaugeAdded 10 [1, 8, 2] [0, o, i] 0 := by decide
  have hfcb : ∀ o, o < 8 → Moves gaugeAdded 11 [1, 8] [0, o] 0 := by decide
  have hfcprojw : ∀ o, o < 2 → ∀ i, i < 8 → Moves gaugeAdded 12 [1, 2, 8] [0, o, i] (if i = 3 then 2 else 0) := by decide
  have hfcprojb : ∀ o, o < 2 → Moves gaugeAdded 13 [1, 2] [0, o] 1 := by decide
  have moved := @gaugeAdded_moved _ hplain
  have same := @gaugeAdded_same _ hplain
  exact
    { ln1w := fun c hc => same "ln1w" rfl (hln1w c hc)
      ln1b := fun c hc => same "ln1b" rfl (hln1b c hc)
      qkvw := fun o ho i hi => same "qkvw" rfl (hqkvw o ho i hi)
      query := fun c hc => same "qkvb" rfl (hquery c hc)
      value := fun c hc => same "qkvb" rfl (hvalue c hc)
      attproj := ⟨_, _, fun o ho i hi => moved "attprojw" rfl (hattprojw o ho i hi),
        fun o ho => moved "attprojb" rfl (hattprojb o ho)⟩
      ln2w := fun c hc => same "ln2w" rfl (hln2w c hc)
      ln2b := fun c hc => same "ln2b" rfl (hln2b c hc)
      fcw := fun o ho i hi => same "fcw" rfl (hfcw o ho i hi)
      fcb := fun o ho => same "fcb" rfl (hfcb o ho)
      fcproj := ⟨_, _, fun o ho i hi => moved "fcprojw" rfl (hfcprojw o ho i hi),
        fun o ho => moved "fcprojb" rfl (hfcprojb o ho)⟩ }

theorem numberedModel_gauge : (numberedModel fun _ => 0).Gauge (numberedModel gaugeAdded) := by
  have hwte : ∀ v, v < 2 → ∀ c, c < 2 → Moves gaugeAdded 0 [2, 2] [v, c] 0 := by decide
  have hwpe : ∀ t, t < 2 → ∀ c, c < 2 → Moves gaugeAdded 1 [2, 2] [t, c] (5 * t) := by decide
  have hlnfw : ∀ c, c < 2 → Moves gaugeAdded 14 [2] [c] 0 := by decide
  have hlnfb : ∀ c, c < 2 → Moves gaugeAdded 15 [2] [c] 0 := by decide
  refine ⟨rfl, rfl, rfl, rfl, ⟨2, rfl⟩, ?_, ?_, ?_, ?_, ?_⟩
  · exact fun v hv c hc => gaugeAdded_same hplain "wte" rfl (hwte v hv c hc)
  · exact fun t ht => ⟨_, fun c hc => gaugeAdded_moved hplain "wpe" rfl (hwpe t ht c hc)⟩
  · intro l hl
    obtain rfl : l = 0 := Nat.lt_one_iff.1 hl
    exact numberedModel_layer hplain
  · exact fun c hc => gaugeAdded_same hplain "lnfw" rfl (hlnfw c hc)
  · exact fun c hc => gaugeAdded_same hplain "lnfb" rfl (hlnfb c hc)

end

open InferenceSession in
/-- Two tokens, the second at a position whose embedding differs: the two models leave the same logits, and sessions on
them answer alike. -/
theorem gauge_invisible_tiny : ∃ _ : FloatReading, ∃ (A B : GPT2Model ℝ) (result result' : InferenceWorkspace ℝ)
    (s : InferenceSession A) (s' : InferenceSession B),
    A.network.wpe 1 0 ≠ B.network.wpe 1 0 ∧ (A.network.layer 0).qkvb 2 ≠ (B.network.layer 0).qkvb 2 ∧
      A.forward [0, 1] .empty = .ok result ∧ B.forward [0, 1] .empty = .ok result' ∧ result'.logits = result.logits ∧
      make A 2 = .ok s ∧ make B 2 = .ok s' ∧
      (run observe s' [.prefill [0] none, .decode 1 none]).1 = (run observe s [.prefill [0] none, .decode 1 none]).1 := by
  let reading : FloatReading := ⟨fun b => b.toNat, 0⟩
  have hplain : ∀ b, FloatReading.ofBits b = b.toNat := fun _ => rfl
  have hgauge := numberedModel_gauge hplain
  have hwpe : Moves gaugeAdded 1 [2, 2] [1, 0] 5 := by decide
  have hkey : Moves gaugeAdded 5 [1, 6] [0, 2] 9 := by decide
  have haccepted : Accepted (numberedModel fun _ => 0).weights.config [0, 1] := pairConfig_accepts
  obtain ⟨result, hok, -⟩ := forward_ok haccepted .empty
  obtain ⟨s, hs⟩ := (make_ok_iff (numberedModel fun _ => 0) 2).2 (by refine ⟨?_, ?_, ?_⟩ <;> decide)
  obtain ⟨hforward, hsessions, -⟩ := gauge_invisible hgauge
  obtain ⟨result', hok', hlogits⟩ := hforward [0, 1] .empty .empty result hok
  obtain ⟨s', hs', hanswers⟩ := hsessions 2 s hs
  have hnone : Planned (none : Option (Executor ℝ)) := ⟨_, Faithful.follows fun _ _ _ h => h⟩
  refine ⟨reading, _, _, result, result', s, s', gaugeAdded_ne hplain "wpe" rfl hwpe (by decide),
    gaugeAdded_ne hplain "qkvb" rfl hkey (by decide), hok, hok', hlogits, hs, hs', hanswers _ ?_⟩
  intro c hc
  rcases List.mem_pair.1 hc with rfl | rfl
  · exact hnone
  · exact hnone

end Gpt2Runtime
