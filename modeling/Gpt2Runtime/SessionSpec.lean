import Gpt2Runtime.CacheSpec
import Gpt2Runtime.ForwardSpec
import Gpt2Runtime.Lib.Refine
/-
# One token through a session

A `Plan` says which linear invocations of a call throw; an executor follows it if it does what the
kernel does everywhere else. `consumeToken_agree` relates the session to the plan alone: the token is
consumed iff no invocation the plan fails is reached, and then the cache has one more row of the
network's keys and values at every layer; if it fails, only rows at the current position have
changed. Everything else a call leaves behind (scratch, logits, rows beyond the position) is
arbitrary, which is what makes a failed call invisible later.
-/

namespace Gpt2Runtime

open Loop Flat Word Kernels Refine

variable {α : Type} [Scalar α]

/-! ## Plans -/

/-- The exception an invocation throws, if it does. -/
def Plan := Site → Option Exc

namespace Plan

def check (plan : Plan) (site : Site) : Except Exc Unit :=
  match plan site with
  | none => .ok ()
  | some e => .error e

/-- The invocations of one layer, in order. -/
def layer (plan : Plan) (p l : Nat) : Except Exc Unit := do
  plan.check (.layer p l .qkv)
  plan.check (.layer p l .attproj)
  plan.check (.layer p l .fc)
  plan.check (.layer p l .fcproj)

/-- The invocations of one token. -/
def token (plan : Plan) (L p : Nat) : Except Exc Unit := do
  forN L () fun l _ => plan.layer p l
  plan.check (.vocabulary p)

/-- The invocations of a prompt of `n` tokens. -/
def tokens (plan : Plan) (L n : Nat) : Except Exc Unit :=
  forN n () fun p _ => plan.token L p

end Plan

/-- The executor returns what the kernel returns except where the plan makes it throw; there it may
leave any buffer of the same length. -/
def Follows (executor : Option (Executor α)) (plan : Plan) : Prop :=
  ∀ site args,
    match plan site with
    | none => ∀ out, kernelLinear args = .ok out → invoke executor site args = .ok out
    | some e => ∃ out, out.length = args.output.length ∧ invoke executor site args = .error (e, out)

/-- An invocation computes the row or throws, as planned. -/
theorem Follows.invoke_cases {executor : Option (Executor α)} {plan : Plan} (hf : Follows executor plan) (site : Site)
    {inputCount outputCount : UInt64} {output input weight bias : List α} {x : Nat → α} {w : Nat → Nat → α}
    {b : Nat → α} (hwt : outputCount.toNat * inputCount.toNat < 2 ^ 64) (ho : output.length = outputCount.toNat)
    (hx : IsVec input inputCount.toNat x) (hw : IsMat weight outputCount.toNat inputCount.toNat w)
    (hb : IsBias bias outputCount.toNat b) :
    (plan.check site = .ok () ∧ ∃ out, invoke executor site ⟨output, input, weight, bias, inputCount, outputCount⟩ = .ok out ∧
      IsVec out outputCount.toNat (linearRow inputCount.toNat x w b)) ∨
    ∃ e out, plan.check site = .error e ∧
      invoke executor site ⟨output, input, weight, bias, inputCount, outputCount⟩ = .error (e, out) ∧
      out.length = outputCount.toNat := by
  have h := hf site ⟨output, input, weight, bias, inputCount, outputCount⟩
  unfold Plan.check
  cases hp : plan site with
  | none =>
    obtain ⟨out, hok, hm⟩ := linear_row_ok inputCount outputCount hwt ho hx hw hb
    simp only [hp] at h
    exact .inl ⟨rfl, out, h out (by simp only [kernelLinear, hok, keep_ok]), hm⟩
  | some e =>
    simp only [hp] at h
    obtain ⟨out, hlen, herr⟩ := h
    exact .inr ⟨e, out, rfl, herr, hlen.trans ho⟩

/-! ## What a session holds -/

namespace InferenceSession

variable {model : GPT2Model α}

/-- The sizes the constructor establishes; no call changes them. -/
structure Shape (capacity : UInt64) (s : InferenceSession model) : Prop where
  cache : s.cache.WellFormed
  numLayers : s.cache.numLayers = model.weights.config.numLayers
  capacity_eq : s.cache.capacity = capacity
  channels : s.cache.channels = model.weights.config.channels
  le_context : capacity.toNat ≤ model.weights.config.maxSequenceLength.toNat
  residual : s.residual.length = model.weights.config.channels.toNat
  normalized : s.normalized.length = model.weights.config.channels.toNat
  qkv : s.qkv.length = 3 * model.weights.config.channels.toNat
  attentionOutput : s.attentionOutput.length = model.weights.config.channels.toNat
  projected : s.projected.length = model.weights.config.channels.toNat
  mlpHidden : s.mlpHidden.length = 4 * model.weights.config.channels.toNat
  attentionScores : s.attentionScores.length = capacity.toNat
  logits : s.logits.length = model.weights.config.vocabularySize.toNat

/-- The cache holds the network's keys and values for the tokens `tok`: at every layer the rows
before position `p`, and row `p` of the layers before `l`. -/
def Rows (tok : Nat → Nat) (p l : Nat) (s : InferenceSession model) : Prop :=
  ∀ l' p', l' < s.cache.numLayers.toNat → p' < s.cache.capacity.toNat → (p' < p ∨ p' = p ∧ l' < l) →
    ∀ c, c < s.cache.channels.toNat →
      s.cache.keys[s.cache.slot l' p' + c]? =
        some (model.network.qkv tok l' p' (model.weights.config.channels.toNat + c)) ∧
      s.cache.values[s.cache.slot l' p' + c]? =
        some (model.network.qkv tok l' p' (2 * model.weights.config.channels.toNat + c))

/-- Between two layers of position `p`. -/
structure Midway (capacity : UInt64) (tok : Nat → Nat) (p l : Nat) (n : UInt64) (s : InferenceSession model) : Prop where
  shape : s.Shape capacity
  rows : s.Rows tok p l
  size : s.size = n
  residual : IsVec s.residual model.weights.config.channels.toNat (model.network.residual tok l p)

/-- What is left of position `p` when a call fails there. -/
structure Aborted (capacity : UInt64) (tok : Nat → Nat) (p : Nat) (n : UInt64) (s : InferenceSession model) : Prop where
  shape : s.Shape capacity
  rows : s.Rows tok p 0
  size : s.size = n

/-- A failure at position `p` with the exception `e`. -/
def AbortsAt (capacity : UInt64) (tok : Nat → Nat) (p : Nat) (n : UInt64) (x : Exc × InferenceSession model) (e : Exc) :
    Prop := x.1 = e ∧ x.2.Aborted capacity tok p n

theorem Rows.mono {tok : Nat → Nat} {p l p₀ l₀ : Nat} {s : InferenceSession model} (h : s.Rows tok p l)
    (hle : p₀ < p ∨ p₀ = p ∧ l₀ ≤ l) : s.Rows tok p₀ l₀ := by
  intro l' p' hl' hp' hlt
  refine h l' p' hl' hp' ?_
  rcases hlt with hlt | ⟨rfl, hlt⟩
  · rcases hle with hle | ⟨rfl, hle⟩
    · exact .inl (by omega)
    · exact .inl hlt
  · rcases hle with hle | ⟨rfl, hle⟩
    · exact .inl hle
    · exact .inr ⟨rfl, by omega⟩

/-- After all layers the position is complete. -/
theorem Rows.next {tok : Nat → Nat} {p : Nat} {s : InferenceSession model}
    (h : s.Rows tok p s.cache.numLayers.toNat) : s.Rows tok (p + 1) 0 := by
  intro l' p' hl' hp' hlt
  refine h l' p' hl' hp' ?_
  rcases hlt with hlt | ⟨_, hlt⟩
  · rcases Nat.lt_or_ge p' p with h | h
    · exact .inl h
    · exact .inr ⟨by omega, hl'⟩
  · exact absurd hlt (Nat.not_lt_zero _)

/-- Storing row `p` of layer `l` leaves the earlier rows alone. -/
theorem Rows.store {tok : Nat → Nat} {p l : Nat} {s s' : InferenceSession model} (h : s.Rows tok p l)
    {keys values : List α} (hcache : s'.cache = { s.cache with keys, values }) (hp : p < s.cache.capacity.toNat)
    (hk : Fills s.cache.keys keys (s.cache.slot l p) s.cache.channels.toNat
      fun c => model.network.qkv tok l p (model.weights.config.channels.toNat + c))
    (hv : Fills s.cache.values values (s.cache.slot l p) s.cache.channels.toNat
      fun c => model.network.qkv tok l p (2 * model.weights.config.channels.toNat + c)) :
    s'.Rows tok p (l + 1) := by
  intro l' p' hl' hp' hlt c hc
  rw [hcache] at hl' hp' hc ⊢
  show keys[s.cache.slot l' p' + c]? = _ ∧ values[s.cache.slot l' p' + c]? = _
  by_cases heq : (l', p') = (l, p)
  · rw [Prod.mk.injEq] at heq
    obtain ⟨rfl, rfl⟩ := heq
    exact ⟨hk.get c hc, hv.get c hc⟩
  · have hdis := KVCache.slot_disjoint hp hp' heq hc
    rw [hk.frame _ hdis, hv.frame _ hdis]
    refine h l' p' hl' hp' ?_ c hc
    rcases hlt with hlt | ⟨rfl, hlt⟩
    · exact .inl hlt
    · refine .inr ⟨rfl, Nat.lt_of_le_of_ne (by omega) ?_⟩
      rintro rfl
      exact heq rfl

/-- Attention over the cached rows up to `p` is the network's, whatever the later rows hold. -/
theorem cachedAttention_ok {capacity : UInt64} {tok : Nat → Nat} {p l : Nat} {s : InferenceSession model}
    {output query scratch : List α} (hs : s.cache.WellFormed) (hL : s.cache.numLayers = model.weights.config.numLayers)
    (hK : s.cache.capacity = capacity) (hC : s.cache.channels = model.weights.config.channels)
    (hrows : s.Rows tok p (l + 1)) (hp : p < capacity.toNat) (hl : l < model.weights.config.numLayers.toNat)
    (ho : output.length = model.weights.config.channels.toNat) (hscr : scratch.length = capacity.toNat)
    (hq : IsVec query model.weights.config.channels.toNat (model.network.qkv tok l p)) :
    ∃ keys values out scratch', s.cache.layerKeys (UInt64.ofNat l) = .ok keys ∧
      s.cache.layerValues (UInt64.ofNat l) = .ok values ∧
      cachedSelfAttention output query keys values scratch (UInt64.ofNat p + 1) s.cache.capacity
        model.weights.config.channels model.weights.config.numHeads = .ok (out, scratch') ∧
      scratch'.length = capacity.toNat ∧
      IsVec out model.weights.config.channels.toNat
        (attend model.weights.config.channels.toNat model.weights.config.numHeads.toNat (model.network.qkv tok l) p) := by
  have hsz := model.wellFormed.sizes
  have hK64 := toNat_lt capacity
  have hl64 : (UInt64.ofNat l).toNat = l := toNat_ofNat_of_lt (Nat.lt_trans hl (toNat_lt _))
  have hvis : (UInt64.ofNat p + 1).toNat = p + 1 := toNat_add_eq (toNat_ofNat_of_lt (by omega)) rfl (by omega)
  obtain ⟨⟨keys, ek, mk⟩, values, ev, mv⟩ := hs.layer_rows
    (show (UInt64.ofNat l).toNat < _ by rw [hl64, hL]; exact hl) (0 : α)
  have hfits := hs.fits
  have hKC : s.cache.capacity.toNat * s.cache.channels.toNat < 2 ^ 64 := by
    have := Nat.le_mul_of_pos_left (s.cache.capacity.toNat * s.cache.channels.toNat) hs.layers_pos
    omega
  rw [hl64] at mk mv
  rw [hC] at mk mv hKC
  obtain ⟨out, scratch', hok, hlen, hm⟩ := cachedSelfAttention_ok hKC hsz.channels hsz.heads_dvd
    (show 0 < (UInt64.ofNat p + 1).toNat by omega) (by rw [hvis, hK]; omega) ho hq mk mv (by rw [hscr, hK])
  refine ⟨keys, values, out, scratch', ek, ev, hok, by rw [hlen, hK], hm.congr fun c hc => ?_⟩
  rw [hvis]
  have hget : ∀ s', s' < p + 1 → ∀ i, i < model.weights.config.channels.toNat →
      s.cache.keys.getD (s.cache.slot l s' + i) 0 =
        model.network.qkv tok l s' (model.weights.config.channels.toNat + i) ∧
      s.cache.values.getD (s.cache.slot l s' + i) 0 =
        model.network.qkv tok l s' (2 * model.weights.config.channels.toNat + i) := by
    intro s' hs' i hi
    obtain ⟨h1, h2⟩ := hrows l s' (by rw [hL]; exact hl) (by rw [hK]; omega)
      (by rcases Nat.lt_or_ge s' p with h | h
          · exact .inl h
          · exact .inr ⟨by omega, by omega⟩) i (by rw [hC]; exact hi)
    rw [List.getD_eq_getElem?_getD, List.getD_eq_getElem?_getD, h1, h2]
    exact ⟨rfl, rfl⟩
  exact attentionRow_congr hsz.heads_dvd hc (fun _ _ => rfl) (fun s' hs' i hi => (hget s' hs' i hi).1)
    fun s' hs' i hi => (hget s' hs' i hi).2

/-- **One layer of one token.** It throws exactly where the plan does, and then no row before the
position has changed; otherwise the layer's row is stored and the residual is the next layer's. -/
theorem consumeLayer_agree {executor : Option (Executor α)} {plan : Plan} (hf : Follows executor plan)
    {capacity : UInt64} {tok : Nat → Nat} {p l : Nat} {n : UInt64} {s : InferenceSession model}
    (h : s.Midway capacity tok p l n) (hp : p < capacity.toNat) (hl : l < model.weights.config.numLayers.toNat) :
    Agree (AbortsAt capacity tok p n) (fun s' _ => Midway capacity tok p (l + 1) n s') (consumeLayer executor (UInt64.ofNat p) (3 * model.weights.config.channels) (4 * model.weights.config.channels)
        (UInt64.ofNat l) s) (plan.layer p l) := by
  obtain ⟨hs, hrows, hsize, hres⟩ := h
  obtain ⟨hC, hH, h3, h4, -, -, -, -⟩ := model.wellFormed.sizes
  obtain ⟨hCC, h3C, h4C⟩ := model.wellFormed.sizes.weights_lt
  obtain ⟨w, hw, hspans⟩ := model.layerSpans_ok hl "session layer offset"
  have hK64 := toNat_lt capacity
  have hp64 : (UInt64.ofNat p).toNat = p := toNat_ofNat_of_lt (by omega)
  have hl64 : (UInt64.ofNat l).toNat = l := toNat_ofNat_of_lt (Nat.lt_trans hl (toNat_lt _))
  have h2C : (2 * model.weights.config.channels).toNat = 2 * model.weights.config.channels.toNat :=
    toNat_mul_eq rfl rfl (by have := toNat_lt (3 * model.weights.config.channels); omega)
  have hstart : s.Rows tok p 0 := hrows.mono (.inr ⟨rfl, Nat.zero_le _⟩)
  simp only [consumeLayer, Plan.layer, hp64, hl64, hw, keep_ok, ok_bind]
  -- qkv, into the cache
  obtain ⟨normalized, e1, m1⟩ := layerNorm_row_ok hC hs.normalized hres hspans.ln1w hspans.ln1b
  simp only [e1, keep_ok, ok_bind]
  rcases hf.invoke_cases (.layer p l .qkv) (by rw [h3]; omega) (hs.qkv.trans h3.symm) m1 (by rw [h3]; exact hspans.qkvw)
    (by rw [h3]; exact .of_vec (by omega) hspans.qkvb) with ⟨hc, qkv, e2, m2⟩ | ⟨e, out, hc, e2, hlen⟩
  swap
  · simp only [hc, e2, into, error_bind]
    refine .error ⟨rfl, ?_, hstart, hsize⟩
    exact { hs with normalized := m1.1, qkv := hlen.trans h3 }
  rw [h3] at m2
  have mq : IsVec (qkv.take model.weights.config.channels.toNat) model.weights.config.channels.toNat
      (model.network.qkv tok l p) := by
    have := m2.slice (o := 0) (k := model.weights.config.channels.toNat) (by omega)
    simp only [Nat.zero_add, List.drop_zero] at this
    exact this
  have mk := m2.slice (o := model.weights.config.channels.toNat) (k := model.weights.config.channels.toNat) (by omega)
  have mv := m2.slice (o := 2 * model.weights.config.channels.toNat) (k := model.weights.config.channels.toNat) (by omega)
  have esub : subspan qkv model.weights.config.channels model.weights.config.channels = .ok _ :=
    subspan_ok (by rw [m2.1]; omega)
  have esub2 : subspan qkv (2 * model.weights.config.channels) model.weights.config.channels = .ok _ :=
    subspan_ok (by rw [m2.1, h2C]; omega)
  have efirst : first qkv model.weights.config.channels = .ok _ := first_ok (by rw [m2.1]; omega)
  obtain ⟨keys, values, estore, hFk, hFv⟩ := hs.cache.store_ok
    (show (UInt64.ofNat l).toNat < _ by rw [hl64, hs.numLayers]; exact hl)
    (show (UInt64.ofNat p).toNat < _ by rw [hp64, hs.capacity_eq]; exact hp) (by rw [hs.channels]; exact mk)
    (by rw [hs.channels]; exact mv)
  rw [hl64, hp64] at hFk hFv
  rw [h2C] at esub2
  simp only [hc, e2, into, esub, esub2, efirst, estore, keep_ok, ok_bind]
  -- attention over the rows up to this one
  have hcache := hs.cache.withRows hFk.length hFv.length
  have hrows1 : ∀ t : InferenceSession model, t.cache = { s.cache with keys, values } → t.Rows tok p (l + 1) :=
    fun t ht => hrows.store ht (by rw [hs.capacity_eq]; exact hp) hFk hFv
  obtain ⟨ckeys, cvalues, attentionOutput, attentionScores, ek, ev, e3, hscores, m3⟩ :=
    cachedAttention_ok (s := { s with cache := { s.cache with keys, values } }) hcache hs.numLayers hs.capacity_eq
      hs.channels (hrows1 _ rfl) hp hl hs.attentionOutput hs.attentionScores mq
  simp only [ek, ev, e3, keep_ok, ok_bind]
  have hs1 : InferenceSession.Shape capacity
      ({ s with normalized, qkv, cache := { s.cache with keys, values }, attentionOutput, attentionScores } :
        InferenceSession model) :=
    { hs with cache := hcache, normalized := m1.1, qkv := m2.1, attentionOutput := m3.1, attentionScores := hscores }
  have hstart1 : InferenceSession.Rows tok p (l + 1)
      ({ s with normalized, qkv, cache := { s.cache with keys, values }, attentionOutput, attentionScores } :
        InferenceSession model) := hrows1 _ rfl
  -- output projection
  rcases hf.invoke_cases (.layer p l .attproj) (by omega) hs.projected m3 hspans.attprojw (.of_vec hC hspans.attprojb) with
    ⟨hc, projected, e4, m4⟩ | ⟨e, out, hc, e4, hlen⟩
  swap
  · simp only [hc, e4, error_bind]
    exact .error ⟨rfl, { hs1 with projected := hlen }, hstart1.mono (.inr ⟨rfl, Nat.zero_le _⟩), hsize⟩
  obtain ⟨residual, e5, m5⟩ := addInPlace_vec_ok (toNat_lt _) hres m4
  obtain ⟨normalized', e6, m6⟩ := layerNorm_row_ok hC m1.1 m5 hspans.ln2w hspans.ln2b
  simp only [hc, e4, e5, e6, keep_ok, ok_bind]
  -- hidden layer
  rcases hf.invoke_cases (.layer p l .fc) (by rw [h4]; omega) (hs.mlpHidden.trans h4.symm) m6 (by rw [h4]; exact hspans.fcw)
    (by rw [h4]; exact .of_vec (by omega) hspans.fcb) with ⟨hc, mlpHidden, e7, m7⟩ | ⟨e, out, hc, e7, hlen⟩
  swap
  · simp only [hc, e7, error_bind]
    refine .error ⟨rfl, ?_, hstart1.mono (.inr ⟨rfl, Nat.zero_le _⟩), hsize⟩
    exact { hs1 with residual := m5.1, projected := m4.1, normalized := m6.1, mlpHidden := hlen.trans h4 }
  have m7' := geluInPlace_vec m7
  simp only [hc, e7, ok_bind]
  rcases hf.invoke_cases (.layer p l .fcproj) (by rw [h4, Nat.mul_comm]; omega) m4.1 m7' (by rw [h4]; exact hspans.fcprojw) (.of_vec hC hspans.fcprojb) with
    ⟨hc, projected', e8, m8⟩ | ⟨e, out, hc, e8, hlen⟩
  swap
  · simp only [hc, e8, error_bind]
    refine .error ⟨rfl, ?_, hstart1.mono (.inr ⟨rfl, Nat.zero_le _⟩), hsize⟩
    exact { hs1 with residual := m5.1, projected := hlen, normalized := m6.1, mlpHidden := m7'.1.trans h4 }
  obtain ⟨residual', e9, m9⟩ := addInPlace_vec_ok (toNat_lt _) m5 m8
  simp only [hc, e8, e9, keep_ok, ok_bind, pure_ok]
  refine .ok ⟨?_, hstart1, hsize, ?_⟩
  · exact { hs1 with residual := m9.1, projected := m8.1, normalized := m6.1, mlpHidden := m7'.1.trans h4 }
  · rw [h4] at m9
    exact m9

theorem embedToken_ok {residual wte wpe : List α} {token : Int32} {p : Nat}
    (htok : TokenValid model.weights.config token) (hp : p < model.weights.config.maxSequenceLength.toNat)
    (hwte : IsMat wte model.weights.config.paddedVocabularySize.toNat model.weights.config.channels.toNat model.network.wte)
    (hwpe : IsMat wpe model.weights.config.maxSequenceLength.toNat model.weights.config.channels.toNat model.network.wpe)
    (hres : residual.length = model.weights.config.channels.toNat) :
    ∃ out, embedToken residual wte wpe token (UInt64.ofNat p) model.weights.config.channels = .ok out ∧
      IsVec out model.weights.config.channels.toNat
        (fun c => model.network.wte (tokenId token) c + model.network.wpe p c) := by
  have hw := model.wellFormed
  have hVC := hw.sizes.vocabulary_lt
  have hTC := hw.sizes.context_lt
  have hC64 := toNat_lt model.weights.config.channels
  have hT64 := toNat_lt model.weights.config.maxSequenceLength
  have hrow : tokenId token < model.weights.config.paddedVocabularySize.toNat :=
    Nat.lt_of_lt_of_le htok.2 hw.valid.padded_ge
  obtain ⟨out, hok, hF⟩ : ∃ out, embedToken residual wte wpe token (UInt64.ofNat p) model.weights.config.channels = .ok out ∧
      Fills residual out 0 model.weights.config.channels.toNat
        (fun c => model.network.wte (tokenId token) c + model.network.wpe p c) := by
    apply fill_loop (by omega)
    intro c out hc hF
    have htokrow := idx_lt hrow hc
    have hposrow := idx_lt hp hc
    have hbase : (castSize token * model.weights.config.channels + UInt64.ofNat c).toNat =
        tokenId token * model.weights.config.channels.toNat + c :=
      toNat_add_eq (toNat_mul_eq htok.toNat rfl (by omega)) (toNat_ofNat_of_lt (by omega)) (by omega)
    beta_reduce
    rw [read_ok hbase (hwte.2 _ hrow c hc), ok_bind, read_ok (toNat_idx (by omega) (by omega)) (hwpe.2 p hp c hc), ok_bind,
      write_ok _ (toNat_ofNat_of_lt (by omega)) (by rw [hF.length]; omega), Nat.zero_add]
  exact ⟨out, hok, hF.toVec hres⟩

/-- **One token.** It throws exactly where the plan does and then keeps the rows before its position;
otherwise its row is stored at every layer and the logits are the network's for its position. -/
theorem consumeToken_agree {executor : Option (Executor α)} {plan : Plan} (hf : Follows executor plan)
    {capacity : UInt64} {tok : Nat → Nat} {p : Nat} {n : UInt64} {s : InferenceSession model} {token : Int32}
    (h : s.Aborted capacity tok p n) (hp : p < capacity.toNat) (htok : TokenValid model.weights.config token)
    (hid : tok p = tokenId token) :
    Agree (AbortsAt capacity tok p n)
      (fun s' _ => Aborted capacity tok (p + 1) n s' ∧
        IsVec s'.logits model.weights.config.vocabularySize.toNat (model.network.logit tok p))
      (consumeToken token (UInt64.ofNat p) executor s) (plan.token model.weights.config.numLayers.toNat p) := by
  obtain ⟨hs, hrows, hsize⟩ := h
  have hsz := model.wellFormed.sizes
  have hK64 := toNat_lt capacity
  have hp64 : (UInt64.ofNat p).toNat = p := toNat_ofNat_of_lt (by omega)
  have hc3 := hsz.checked_c3 "session 3 * channels"
  have hc4 := hsz.checked_c4 "session 4 * channels"
  obtain ⟨wte, ewte, mwte⟩ := model.wte_ok
  obtain ⟨wpe, ewpe, mwpe⟩ := model.wpe_ok
  obtain ⟨lnfw, elnfw, mlnfw⟩ := model.lnfw_ok
  obtain ⟨lnfb, elnfb, mlnfb⟩ := model.lnfb_ok
  obtain ⟨residual, eres, mres⟩ := embedToken_ok htok (Nat.lt_of_lt_of_le hp hs.le_context) mwte mwpe hs.residual
  simp only [consumeToken, Plan.token, hc3, hc4, ewte, ewpe, eres, hp64, keep_ok, ok_bind]
  refine Agree.bind (R := fun s' _ => Midway capacity tok p model.weights.config.numLayers.toNat n s') ?_ ?_
  · refine Agree.forN (I := fun l s' _ => Midway capacity tok p l n s') ?_ fun l s' _ hl hm =>
      consumeLayer_agree hf hm hp hl
    refine ⟨{ hs with residual := mres.1 }, hrows, hsize, ?_⟩
    rw [show model.network.residual tok 0 p = fun c => model.network.wte (tok p) c + model.network.wpe p c from rfl, hid]
    exact mres
  · intro s' _ ⟨hs', hrows', hsize', hres'⟩
    obtain ⟨normalized, e1, m1⟩ := layerNorm_row_ok hsz.channels hs'.normalized hres' mlnfw mlnfb
    obtain ⟨weight, efirst, mweight⟩ := model.realVocabulary_ok mwte
    have hfit := model.realVocabulary_lt
    simp only [elnfw, elnfb, e1, efirst, keep_ok, ok_bind]
    rcases hf.invoke_cases (.vocabulary p) (show _ * _ < 2 ^ 64 by omega) hs'.logits m1
      mweight (.inl ⟨rfl, rfl⟩) with
      ⟨hc, logits, e2, m2⟩ | ⟨e, out, hc, e2, hlen⟩
    · simp only [hc, e2, into]
      refine .ok ⟨⟨{ hs' with normalized := m1.1, logits := m2.1 }, ?_, hsize'⟩, m2⟩
      rw [← hs'.numLayers] at hrows'
      exact hrows'.next
    · simp only [hc, e2, into]
      exact .error ⟨rfl, { hs' with normalized := m1.1, logits := hlen }, hrows'.mono (.inr ⟨rfl, Nat.zero_le _⟩), hsize'⟩

end InferenceSession

end Gpt2Runtime
