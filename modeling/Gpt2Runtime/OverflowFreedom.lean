import Gpt2Runtime.ActivationBounds
import Gpt2Runtime.FixedPoint
import Gpt2Runtime.GenerateMain
import Gpt2Runtime.RangeConditions
/-
# Nothing overflows, nothing is not a number

| here | there |
| --- | --- |
| `Network.WithinWeights` | the parameters of the checkpoint, finite and of a known size |
| `Fits`                  | the dimensions of the checkpoint and the size of its parameters are in range |

If every parameter is finite and the few numbers of `Fits` are in range, every number that `forward` leaves, a session
caches or answers, or the generator dumps is finite (`never_overflows`). A reference arithmetic that does overflow satisfies
the assumptions (`never_overflows_tiny`).
-/

namespace Gpt2Runtime

open Loop Flat Word Kernels RoundedArithmetic

variable {α : Type} [Scalar α]

/-! ## Weights -/

structure LayerWeights.Within (A : FloatArithmetic α) (w : ℝ) (weights : LayerWeights α) : Prop where
  ln1w : ∀ c, A.Within w (weights.ln1w c)
  ln1b : ∀ c, A.Within w (weights.ln1b c)
  qkvw : ∀ o i, A.Within w (weights.qkvw o i)
  qkvb : ∀ o, A.Within w (weights.qkvb o)
  attprojw : ∀ o i, A.Within w (weights.attprojw o i)
  attprojb : ∀ o, A.Within w (weights.attprojb o)
  ln2w : ∀ c, A.Within w (weights.ln2w c)
  ln2b : ∀ c, A.Within w (weights.ln2b c)
  fcw : ∀ o i, A.Within w (weights.fcw o i)
  fcb : ∀ o, A.Within w (weights.fcb o)
  fcprojw : ∀ o i, A.Within w (weights.fcprojw o i)
  fcprojb : ∀ o, A.Within w (weights.fcprojb o)

structure Network.WithinWeights (A : FloatArithmetic α) (w : ℝ) (N : Network α) : Prop where
  wte : ∀ v c, A.Within w (N.wte v c)
  wpe : ∀ t c, A.Within w (N.wpe t c)
  layer : ∀ l, (N.layer l).Within A w
  lnfw : ∀ c, A.Within w (N.lnfw c)
  lnfb : ∀ c, A.Within w (N.lnfb c)

variable {A : FloatArithmetic α} {w : ℝ} {C H T L : Nat}

open FloatArithmetic

omit [Scalar α] in
theorem ModelWeights.tensor_values_mem {weights : ModelWeights α} {name : String} {view : TensorView α}
    (h : weights.tensor name = .ok view) {a : α} (ha : a ∈ view.values) : a ∈ weights.storage := by
  unfold ModelWeights.tensor at h
  obtain ⟨spec, -, h⟩ := bind_eq_ok.1 h
  obtain ⟨values, hvalues, h⟩ := bind_eq_ok.1 h
  unfold TensorView.make at h
  obtain ⟨-, h⟩ := throwIf_bind_ok.1 h
  obtain ⟨expected, -, h⟩ := bind_eq_ok.1 h
  obtain ⟨-, h⟩ := throwIf_bind_ok.1 h
  obtain rfl := Except.ok.inj h
  unfold subspan at hvalues
  split at hvalues
  · obtain rfl := Except.ok.inj hvalues
    exact List.mem_of_mem_drop (List.mem_of_mem_take ha)
  · cases hvalues

/-- Every entry of a tensor is a stored float, or 0 outside its shape. -/
theorem ModelWeights.entry_within {weights : ModelWeights α} (hw : 0 ≤ w)
    (hstorage : ∀ a ∈ weights.storage, A.Within w a) (name : String) (index : List Nat) : A.Within w (weights.entry name index) := by
  unfold ModelWeights.entry
  cases htensor : weights.tensor name with
  | error e => exact within_zero hw
  | ok view =>
    show A.Within w (view.values.getD _ 0)
    rw [List.getD_eq_getElem?_getD]
    cases hget : view.values[rowMajor ((view.shape.take view.rank).map UInt64.toNat) index]? with
    | none => exact within_zero hw
    | some a => exact hstorage a (tensor_values_mem htensor (List.mem_of_getElem? hget))

/-! ## Layers -/

section

variable (h : A.InRange w C H T L) (hC : 1 ≤ C)
include h hC

theorem within_normalized {x ws bs : Nat → α} {s : ℝ} (hx : ∀ i, i < C → A.Within s (x i)) (hs : 1 ≤ s)
    (hle : s ≤ A.residualBound w C L) (hw : ∀ c, A.Within w (ws c)) (hb : ∀ c, A.Within w (bs c)) {c : Nat} (hc : c < C) :
    A.Within (A.normBound w C) (layerNormRow C x ws bs c) :=
  within_layerNormRow hx hs hC h.channels_le (h.square_le (by linarith) hle) hc (hw c) (hb c) ((h.norm_le hC).trans (h.qkv_le hC))

/-- The rows behind a normalization: `qkvw`, `fcw` and the logits. -/
theorem within_normalized_linear {x ws bs : Nat → α} {s : ℝ} (hx : ∀ i, i < C → A.Within s (x i)) (hs : 1 ≤ s)
    (hle : s ≤ A.residualBound w C L) (hw : ∀ c, A.Within w (ws c)) (hb : ∀ c, A.Within w (bs c)) {lw : Nat → Nat → α}
    {lb : Nat → α} (hlw : ∀ o i, A.Within w (lw o i)) (hlb : ∀ o, A.Within w (lb o)) (o : Nat) :
    A.Within (A.qkvBound w C) (linearRow C (layerNormRow C x ws bs) lw lb o) :=
  within_linearRow o (fun _ hi => within_normalized h hC hx hs hle hw hb hi) (hlw o) (hlb o) (by linarith [h.norm_pos])
    h.channels_le (h.qkv_le hC)

/-- **A layer** stays in range, and adds no more than its weights allow. -/
theorem within_block (hH : 1 ≤ C / H) {weights : LayerWeights α} (hw : weights.Within A w) {x : Nat → Nat → α} {l t : Nat}
    (hl : l + 1 ≤ L) (ht : t < T) (hx : ∀ s, s ≤ t → ∀ c, A.Within (A.residualBound w C l) (x s c)) (c : Nat) :
    A.Within (A.residualBound w C (l + 1)) (block C H weights x t c) := by
  have hone := h.residual_pos hC l
  obtain ⟨hfirst, hsecond⟩ := h.layer_le hC (l := l) (by linarith)
  have hlast := h.residual_mono hC hl
  have hrange := h.residual_le hC hl
  have hattproj := h.attproj_pos hC
  have hfcproj := (h.hidden_nonneg hC).trans (h.hidden_le hC)
  have hqkv : ∀ s, s ≤ t → ∀ o, A.Within (A.qkvBound w C) (qkvRow C weights (x s) o) := fun s hs o =>
    within_normalized_linear h hC (fun c _ => hx s hs c) hone (by linarith) hw.ln1w hw.ln1b hw.qkvw hw.qkvb o
  have hcount : ((t + 1 : Nat) : ℝ) ≤ T := by exact_mod_cast ht
  have hattend : ∀ c, A.Within (7 * A.qkvBound w C) (attend C H (fun s => qkvRow C weights (x s)) t c) :=
    within_attentionRow hH (Nat.succ_pos t) (fun i => hqkv t le_rfl i) (fun s hs i => hqkv s (by omega) _)
      (fun s hs i => hqkv s (by omega) _) (h.qkv_pos hC) h.head_le
      ((mul_le_mul_of_nonneg_right hcount A.unit_nonneg).trans h.positions) (by linarith [h.count]) h.score
      ((h.attend_le hC).trans h.attproj)
  have hresidual : ∀ c, A.Within (A.up (A.residualBound w C l + A.attprojBound w C))
      (attResidual C weights (x t) (attend C H (fun s => qkvRow C weights (x s)) t) c) := fun c =>
    (hx t le_rfl c).add (within_linearRow c (fun i _ => hattend i) (hw.attprojw c) (hw.attprojb c) (by linarith [h.qkv_pos hC])
      h.channels_le h.attproj) (by linarith)
  have hhidden : ∀ o, A.Within (A.hiddenBound w C)
      (mlpHidden C weights (attResidual C weights (x t) (attend C H (fun s => qkvRow C weights (x s)) t)) o) := fun o =>
    within_gelu (within_normalized_linear h hC (fun c _ => hresidual c) (by linarith) (by linarith) hw.ln2w hw.ln2b hw.fcw
      hw.fcb o) (h.qkv_pos hC) h.cube ((h.hidden_le hC).trans h.fcproj)
  exact (hresidual c).add (within_linearRow c (fun i _ => hhidden i) (hw.fcprojw c) (hw.fcprojb c) (h.hidden_nonneg hC)
    h.channels h.fcproj) (by linarith)

end

/-! ## The network -/

namespace Network

variable {N : Network α} (h : A.InRange w N.channels N.heads T N.layers) (hC : 1 ≤ N.channels) (hH : 1 ≤ N.channels / N.heads)
  (hw : N.WithinWeights A w)
include h hC hH hw

theorem within_residual (tok : Nat → Nat) {l t : Nat} (hl : l ≤ N.layers) (ht : t < T) (c : Nat) :
    A.Within (A.residualBound w N.channels l) (N.residual tok l t c) := by
  induction l generalizing t c with
  | zero =>
    have hrange := h.residual_le hC (Nat.zero_le _)
    have hround : w + w ≤ A.residualBound w N.channels 0 := le_up (by linarith [h.one_le])
    exact (hw.wte _ c).add (hw.wpe t c) (by linarith)
  | succ l ih => exact within_block h hC hH (hw.layer l) hl ht (fun s hs c => ih (by omega) (by omega) c) c

theorem within_qkv (tok : Nat → Nat) {l t : Nat} (hl : l ≤ N.layers) (ht : t < T) (o : Nat) :
    A.Within (A.qkvBound w N.channels) (N.qkv tok l t o) :=
  within_normalized_linear h hC (fun c _ => within_residual h hC hH hw tok hl ht c) (h.residual_pos hC l) (h.residual_mono hC hl)
    (hw.layer l).ln1w (hw.layer l).ln1b (hw.layer l).qkvw (hw.layer l).qkvb o

theorem within_logit (tok : Nat → Nat) {t : Nat} (ht : t < T) (v : Nat) : A.Within (A.qkvBound w N.channels) (N.logit tok t v) :=
  within_normalized_linear h hC (fun c _ => within_residual h hC hH hw tok le_rfl ht c) (h.residual_pos hC _) le_rfl hw.lnfw
    hw.lnfb hw.wte (fun _ => within_zero (by linarith [h.one_le])) v

end Network

/-! ## The runtime -/

/-- The dimensions of a checkpoint, with weights up to `w`. -/
def FloatArithmetic.Fits (A : FloatArithmetic α) (w : ℝ) (config : ModelConfig) : Prop :=
  A.InRange w config.channels.toNat config.numHeads.toNat config.maxSequenceLength.toNat config.numLayers.toNat

theorem GPT2Model.withinWeights {model : GPT2Model α} (hw : 0 ≤ w) (hstorage : ∀ a ∈ model.weights.storage, A.Within w a) :
    model.network.WithinWeights A w := by
  have hentry := fun name index => ModelWeights.entry_within hw hstorage name index
  exact ⟨fun v c => hentry _ _, fun t c => hentry _ _,
    fun l => ⟨fun c => hentry _ _, fun c => hentry _ _, fun o i => hentry _ _, fun o => hentry _ _, fun o i => hentry _ _,
      fun o => hentry _ _, fun c => hentry _ _, fun c => hentry _ _, fun o i => hentry _ _, fun o => hentry _ _,
      fun o i => hentry _ _, fun o => hentry _ _⟩,
    fun c => hentry _ _, fun c => hentry _ _⟩

open InferenceSession

section

variable {model : GPT2Model α} (hstorage : ∀ a ∈ model.weights.storage, A.Within w a) (h : A.Fits w model.weights.config)
include hstorage h

namespace GPT2Model

theorem network_in_range : A.InRange w model.network.channels model.network.heads model.weights.config.maxSequenceLength.toNat
    model.network.layers ∧ 1 ≤ model.network.channels ∧ 1 ≤ model.network.channels / model.network.heads ∧
    model.network.WithinWeights A w := by
  have hvalid := model.wellFormed.valid
  refine ⟨h, hvalid.channels, ?_, withinWeights (by linarith [h.one_le]) hstorage⟩
  exact Nat.div_pos (Nat.le_of_dvd hvalid.channels hvalid.heads_dvd) hvalid.numHeads

theorem within_logits {P : List Int32} (hP : P.length ≤ model.weights.config.maxSequenceLength.toNat) {n : Nat} :
    ∀ a ∈ (List.range n).map (model.network.logit (tokenAt P) (P.length - 1)),
      A.Within (A.qkvBound w model.weights.config.channels.toNat) a := by
  intro a ha
  obtain ⟨v, -, rfl⟩ := List.mem_map.1 ha
  obtain ⟨hrange, hC, hH, hweights⟩ := network_in_range hstorage h
  have hpositive := model.wellFormed.valid.maxSequenceLength
  exact Network.within_logit hrange hC hH hweights _ (by omega) v

theorem within_answer {capacity : UInt64} {s : InferenceSession model} {P : List Int32} (hs : s.Holds capacity P) {call : Call α}
    (hcall : call.Allows Planned) {logits : List α} (hok : (s.step call).1 = .ok logits) :
    ∀ a ∈ logits, A.Within (A.qkvBound w model.weights.config.channels.toNat) a := by
  obtain ⟨request, hreq⟩ := hcall.makes fun executor hA => hA
  obtain ⟨hout, hholds⟩ := step_refines hs hreq
  rw [hout] at hok
  rcases TokenMachine.answer_of_step hok with rfl | rfl
  · simp
  · exact within_logits hstorage h (Nat.le_trans hholds.length_le hholds.shape.le_context)

theorem within_dump {files : Generate.Files} {host : Host (Executor α)} {options : Generate.Options} {out : Output α}
    (hserves : host.Serves) (husable : Generate.Usable options)
    (hloads : Generate.Loads files options.checkpoint model) (hout : Generate.generate files host options = .ok out)
    {values : List α} (hdump : out.dump = some values) :
    ∀ a ∈ values, A.Within (A.qkvBound w model.weights.config.channels.toNat) a := by
  obtain ⟨model', hcompletes, rfl⟩ := (Generate.generate_ok_iff hserves husable).1 hout
  obtain rfl := hcompletes.loads.unique hloads
  have hlength : (Generate.tokensAfter options model').length ≤ model'.weights.config.maxSequenceLength.toNat := by
    rw [Generate.tokensAfter, length_greedy]
    exact hcompletes.context
  change Generate.dumped options model' = some values at hdump
  unfold Generate.dumped at hdump
  split at hdump
  · cases hdump
  · cases hmode : options.mode with
    | full =>
      simp only [hmode, Option.some.injEq] at hdump
      subst hdump
      exact within_logits hstorage h hlength
    | cached =>
      simp only [hmode, Option.some.injEq] at hdump
      subst hdump
      exact within_logits hstorage h hlength

end GPT2Model

/-- **Nothing kept or returned is an infinity or not a number.** Let every stored parameter be finite and at most `w`, and let
the few numbers of `Fits` be in range. Then, in any arithmetic that rounds like IEEE 754: after each layer of `forward` the
residual of every position is finite and at most its bound; every logit of `forward` is finite; every cached key and value of
every reachable session is finite, whatever calls failed before and whatever executors threw; every answer of a session and
every dump of the generator holds finite numbers only. -/
theorem never_overflows :
    (∀ tokens workspace result, model.forward tokens workspace = .ok result →
      (∀ count, count ≤ model.weights.config.numLayers.toNat → ∃ ws, model.forwardThrough tokens count workspace = .ok ws ∧
        ∀ t, t < tokens.length → ∀ c, c < model.weights.config.channels.toNat →
          ∃ a, ws.residual[t * model.weights.config.channels.toNat + c]? = some a ∧
            A.Within (A.residualBound w model.weights.config.channels.toNat count) a) ∧
      ∀ t, t < tokens.length → ∀ v, v < model.weights.config.paddedVocabularySize.toNat →
        ∃ a, result.logits[t * model.weights.config.paddedVocabularySize.toNat + v]? = some a ∧
          A.Within (A.qkvBound w model.weights.config.channels.toNat) a) ∧
    (∀ (capacity : UInt64) (s : InferenceSession model) (P : List Int32), Reachable Planned capacity s P →
      (∀ l p : UInt64, l.toNat < model.weights.config.numLayers.toNat → p.toNat < s.size.toNat →
        ∃ key value, s.cache.key l p = .ok key ∧ s.cache.value l p = .ok value ∧
          ∀ c, c < model.weights.config.channels.toNat → ∃ a b, key[c]? = some a ∧ value[c]? = some b ∧
            A.Within (A.qkvBound w model.weights.config.channels.toNat) a ∧
            A.Within (A.qkvBound w model.weights.config.channels.toNat) b) ∧
      ∀ call : Call α, call.Allows Planned → ∀ logits, (s.step call).1 = .ok logits →
        ∀ a ∈ logits, A.Within (A.qkvBound w model.weights.config.channels.toNat) a) ∧
    ∀ (files : Generate.Files) (host : Host (Executor α)) (options : Generate.Options) (out : Output α),
      host.Realizes → Generate.Usable options →
      Generate.Loads files options.checkpoint model → Generate.generate files host options = .ok out →
      ∀ values, out.dump = some values → ∀ a ∈ values, A.Within (A.qkvBound w model.weights.config.channels.toNat) a := by
  obtain ⟨hrange, hC, hH, hweights⟩ := GPT2Model.network_in_range hstorage h
  refine ⟨?_, ?_, ?_⟩
  · intro tokens workspace result hok
    have hacc := (forward_ok_iff model tokens workspace).1 ⟨result, hok⟩
    have hlength := hacc.length_le
    constructor
    · intro count hcount
      obtain ⟨ws, hthrough, hafter⟩ := forwardThrough_ok hacc workspace hcount
      exact ⟨ws, hthrough, fun t ht c hc => ⟨_, hafter.residual.2 t ht c hc,
        Network.within_residual hrange hC hH hweights _ hcount (by omega) c⟩⟩
    · intro t ht v hv
      obtain ⟨ws, hws, -, hlogits⟩ := forward_ok hacc workspace
      obtain rfl := Except.ok.inj (hok.symm.trans hws)
      exact ⟨_, hlogits.2 t ht v hv, Network.within_logit hrange hC hH hweights _ (by omega) v⟩
  · intro capacity s P hreachable
    have hh : s.Holds capacity P := hreachable.holds fun executor hA => hA
    refine ⟨fun l p hl hp => ?_, fun call hcall logits hok => GPT2Model.within_answer hstorage h hh hcall hok⟩
    rw [hh.size] at hp
    obtain ⟨key, value, hkey, hvalue, mkey, mvalue⟩ := hh.key_value hl hp
    have hcontext := Nat.le_trans hh.length_le hh.shape.le_context
    exact ⟨key, value, hkey, hvalue, fun c hc => ⟨_, _, mkey.2 c hc, mvalue.2 c hc,
      Network.within_qkv hrange hC hH hweights _ hl.le (by omega) _,
      Network.within_qkv hrange hC hH hweights _ hl.le (by omega) _⟩⟩
  · intro files host options out hhost husable hloads hout values hdump
    exact GPT2Model.within_dump hstorage h hhost.serves husable hloads hout hdump

end

/-- Halves and negative quarters. -/
def fixedPayload : List (BitVec 32) := (List.replicate 43 [0x3f000000, 0xbe800000]).flatten

theorem length_fixedPayload : fixedPayload.length = ParameterLayout.parameterCount pairConfig := by
  simp only [fixedPayload, List.length_flatten, List.map_replicate, List.sum_replicate]
  rfl

noncomputable def fixedModel : GPT2Model Fixed :=
  .written 1 pairConfig fixedPayload pairConfig_writable length_fixedPayload (by rw [length_fixedPayload]; decide)

theorem fixedModel_storage : ∀ a ∈ fixedModel.weights.storage, Fixed.arithmetic.Within 1 a := by
  intro a ha
  obtain ⟨b, hb, rfl⟩ := List.mem_map.1 ha
  obtain ⟨pair, hpair, hb⟩ := List.mem_flatten.1 hb
  obtain rfl := List.eq_of_mem_replicate hpair
  have hexponent : ∀ b ∈ [(0x3f000000 : BitVec 32), 0xbe800000], Fixed.exponentOf b < 127 := by simp [Fixed.exponentOf]
  exact Fixed.value_ofBits (hexponent b hb)

theorem fixedModel_fits : Fixed.arithmetic.Fits 1 fixedModel.weights.config :=
  Fixed.binary32.inRange le_rfl (by norm_num) (by decide) (by decide) (by decide) (by decide)

/-- Two tokens, in an arithmetic that rounds and overflows: the residual after the layer, the logits of both positions and
the answer of a session are finite. -/
theorem never_overflows_tiny : ∃ (ws result : InferenceWorkspace Fixed) (session : InferenceSession fixedModel)
    (logits : List Fixed),
    (fixedModel.forwardThrough [0, 1] 1 .empty = .ok ws ∧ ∀ t, t < 2 → ∀ c, c < 2 →
      ∃ a, ws.residual[t * 2 + c]? = some a ∧ Fixed.arithmetic.Within (10 ^ 15) a) ∧
    (fixedModel.forward [0, 1] .empty = .ok result ∧ ∀ t, t < 2 → ∀ v, v < 2 →
      ∃ a, result.logits[t * 2 + v]? = some a ∧ Fixed.arithmetic.Within 266000000 a) ∧
    make fixedModel 2 = .ok session ∧ (session.step (.prefill [0, 1] none)).1 = .ok logits ∧
      ∀ a ∈ logits, Fixed.arithmetic.Within 266000000 a := by
  have hacc : Accepted fixedModel.weights.config [0, 1] := pairConfig_accepts
  obtain ⟨session, hmake⟩ := (make_ok_iff fixedModel 2).2 (by refine ⟨?_, ?_, ?_⟩ <;> decide)
  have hf : Faithful (none : Option (Executor Fixed)) := fun _ _ _ h => h
  have hcheck : (fixedModel.machine 2).checkPrefill [] [0, 1] = .ok () :=
    TokenMachine.checkPrefill_ok_iff.2 ⟨rfl, hacc.nonempty, hacc.length_le, hacc.valid⟩
  have hanswer := (make_holds hmake).2.faithful_prefill [0, 1] hf
  rw [hcheck] at hanswer
  obtain ⟨hforward, hsession, -⟩ := never_overflows fixedModel_storage fixedModel_fits
  obtain ⟨result, hok, -⟩ := forward_ok hacc .empty
  obtain ⟨hlayers, hlogits⟩ := hforward [0, 1] .empty result hok
  obtain ⟨ws, hthrough, hresidual⟩ := hlayers 1 (by decide)
  obtain ⟨-, hbound⟩ := Fixed.binary32.qkvBound_le le_rfl (by norm_num : (1 : ℝ) ≤ 32) (by decide : (2 : UInt64).toNat ≤ 1600)
  refine ⟨ws, result, session, _, ⟨hthrough, fun t ht c hc => ?_⟩, ⟨hok, fun t ht v hv => ?_⟩, hmake, hanswer, ?_⟩
  · obtain ⟨a, ha, hwithin⟩ := hresidual t ht c hc
    obtain ⟨-, hlayer⟩ := Fixed.binary32.residualBound_le le_rfl (by norm_num : (1 : ℝ) ≤ 32)
      (by decide : (2 : UInt64).toNat ≤ 1600) (by norm_num : 1 ≤ 48)
    exact ⟨a, ha, hwithin.mono (hlayer.trans (by norm_num))⟩
  · obtain ⟨a, ha, hwithin⟩ := hlogits t ht v hv
    exact ⟨a, ha, hwithin.mono hbound⟩
  · intro a ha
    have hcall : (Call.prefill [0, 1] (none : Option (Executor Fixed))).Allows Planned := ⟨_, hf.follows⟩
    exact ((hsession 2 session [] (.make hmake)).2 _ hcall _ hanswer a ha).mono hbound

end Gpt2Runtime
